import TokenLint.Source

/-!
# What readers yield

A property of everything that a reader returns is put together along the reader. Comments in front
of a token are items of their node, so a property of all items is kept by every list of pieces.
-/
namespace TokenLint.Source

open Reader

/-- All that a reader returns has a property. -/
def Yields {α : Type} (P : α → Prop) (r : Reader α) : Prop :=
  ∀ c a c', r c = some (a, c') → P a

section
variable {α β : Type} {P : α → Prop} {Q : β → Prop} {r s : Reader α}

theorem yields_true (r : Reader α) : Yields (fun _ => True) r := fun _ _ _ _ => trivial

theorem Yields.mono {P' : α → Prop} (h : Yields P r) (himp : ∀ a, P a → P' a) : Yields P' r :=
  fun c a c' hr => himp a (h c a c' hr)

theorem yields_pure {a : α} (h : P a) : Yields P (pure a : Reader α) := by
  intro c b c' hb
  obtain ⟨rfl, -⟩ := Prod.mk.inj (Option.some.inj hb)
  exact h

theorem Yields.bind {f : α → Reader β} (h : Yields P r) (hf : ∀ a, P a → Yields Q (f a)) :
    Yields Q (r >>= f) := by
  intro c b c'' hb
  obtain ⟨⟨a, c'⟩, ha, hb⟩ := Option.bind_eq_some_iff.mp hb
  exact hf a (h c a c' ha) c' b c'' hb

theorem Yields.orElse (hr : Yields P r) (hs : Yields P s) : Yields P (r <|> s) := by
  intro c a c' h
  have h : (r c <|> s c) = some (a, c') := h
  cases hrc : r c with
  | some found =>
    rw [hrc] at h
    obtain rfl := Option.some.inj h
    exact hr c a c' hrc
  | none =>
    rw [hrc] at h
    exact hs c a c' h

theorem yields_failure : Yields P (failure : Reader α) := by
  intro c a c' h
  cases h

end

/-- All nodes of all that a reader returns have a property. -/
def YieldsAll (P : Node → Prop) (r : Reader (List Node)) : Prop :=
  Yields (fun ns => ∀ n ∈ ns, P n) r

section
variable {P : Node → Prop} {p q : Reader (List Node)}

theorem yieldsAll_nil : YieldsAll P (pure []) := yields_pure (by simp)

theorem YieldsAll.append {f : Reader (List Node)} (hp : YieldsAll P p) (hf : YieldsAll P f) :
    YieldsAll P (do let first ← p; return first ++ (← f)) := by
  refine hp.bind fun ns hns => hf.bind fun ms hms => yields_pure fun n hn => ?_
  rcases List.mem_append.mp hn with hn | hn
  · exact hns n hn
  · exact hms n hn

theorem YieldsAll.opt (hp : YieldsAll P p) : YieldsAll P (opt p) := hp.orElse yieldsAll_nil

theorem yieldsAll_seq {ps : List (Reader (List Node))} (h : ∀ p ∈ ps, YieldsAll P p) :
    YieldsAll P (seq ps) := by
  induction ps with
  | nil => exact yieldsAll_nil
  | cons p ps ih =>
    obtain ⟨hp, hps⟩ := List.forall_mem_cons.mp h
    exact hp.append (ih hps)

theorem YieldsAll.pair (hp : YieldsAll P p) (hq : YieldsAll P q) : YieldsAll P (seq [p, q]) := by
  refine yieldsAll_seq ?_
  simp only [List.forall_mem_cons]
  exact ⟨hp, hq, by simp⟩

theorem YieldsAll.many (hp : YieldsAll P p) : YieldsAll P (many p) := by
  have hupTo : ∀ n, YieldsAll P (manyUpTo p n) := by
    intro n
    induction n with
    | zero => exact yieldsAll_nil
    | succ n ih =>
      intro c ns c' h
      unfold manyUpTo at h
      dsimp only at h
      split at h
      · obtain ⟨rfl, -⟩ := Prod.mk.inj (Option.some.inj h)
        simp
      · rename_i nodes next hpc
        split at h
        · obtain ⟨⟨more, last⟩, hmore, heq⟩ := Option.map_eq_some_iff.mp h
          obtain ⟨rfl, -⟩ := Prod.mk.inj heq
          intro n hn
          rcases List.mem_append.mp hn with hn | hn
          · exact hp c nodes next hpc n hn
          · exact ih next more last hmore n hn
        · obtain ⟨rfl, -⟩ := Prod.mk.inj (Option.some.inj h)
          exact hp c nodes next hpc
  exact fun c => hupTo (c.rest.length + 1) c

theorem yields_node (k : Kind) (hp : YieldsAll P p) :
    Yields (fun n => n.kind = k ∧ n.role = .item ∧ ∀ m ∈ n.children, P m) (node k p) := by
  refine (yields_true _).bind fun start _ => hp.bind fun cs hcs =>
    (yields_true _).bind fun stop _ => ?_
  exact yields_pure ⟨rfl, rfl, hcs⟩

theorem yields_kind_node (k : Kind) (p : Reader (List Node)) : Yields (·.kind = k) (node k p) := by
  refine (yields_node (P := fun _ => True) k ?_).mono fun n h => h.1
  exact (yields_true p).mono fun _ _ _ _ => trivial

end

/-! ### Pieces with comments in front -/

section
variable {P : Node → Prop} (hcomment : ∀ n : Node, n.kind = .comment → n.role = .item → P n)
include hcomment

theorem yields_comment : Yields P comment := by
  refine (yields_node (P := fun _ => True) .comment ?_).mono fun n h => hcomment n h.1 h.2.1
  exact (yields_true _).mono fun _ _ _ _ => trivial

theorem yieldsAll_trivia : YieldsAll P trivia := by
  refine (yields_true _).bind fun _ _ => YieldsAll.many ?_
  refine (yields_comment hcomment).bind fun n hn => (yields_true _).bind fun _ _ => ?_
  exact yields_pure (by simpa using hn)

theorem yieldsAll_token (p : Reader Unit) : YieldsAll P (token p) :=
  (yieldsAll_trivia hcomment).bind fun _ hns => (yields_true p).bind fun _ _ => yields_pure hns

theorem yieldsAll_child {role : Role} {p : Reader Node} (h : Yields (fun n => P (n.as role)) p) :
    YieldsAll P (child role p) := by
  refine (yieldsAll_trivia hcomment).bind fun ns hns => h.bind fun n hn =>
    yields_pure fun m hm => ?_
  rcases List.mem_append.mp hm with hm | hm
  · exact hns m hm
  · rwa [List.mem_singleton.mp hm]

theorem yieldsAll_semicolon : YieldsAll P semicolon := by
  have hends : ∀ n, YieldsAll P (commentsThenLineEnd n) := by
    intro n
    induction n with
    | zero => exact yields_failure
    | succ n ih =>
      refine (yields_true _).bind fun b _ => ?_
      cases b with
      | true => exact yieldsAll_nil
      | false =>
        refine (yields_true _).bind fun _ _ => (yields_comment hcomment).bind fun n hn =>
          ih.bind fun ns hns => yields_pure ?_
        exact List.forall_mem_cons.mpr ⟨hn, hns⟩
  exact fun c => (yieldsAll_token hcomment _).orElse (hends (c.rest.length + 1)) c

end
end TokenLint.Source
