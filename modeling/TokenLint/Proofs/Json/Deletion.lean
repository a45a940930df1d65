import Mathlib.Data.List.Infix
import TokenLint.Proofs.Json.BlockPass
import TokenLint.Proofs.Json.HashPass

/-!
# What stripping takes out

Each pass puts out a sublist of what it reads, and all of it just when nothing in it begins a
comment. A pass that takes something out leaves fewer characters, and no later pass puts them back:
so a text stays as it is exactly when none of the three kinds of comment begins in it.
-/
namespace TokenLint.Json.Comment

/-- A mark stands in a text behind a character that allows it; `before` is in front of the text. -/
def Stands (mark : List Char) (allows : Option Char → Bool) (before : Option Char)
    (cs : List Char) : Prop :=
  ∃ front back, cs = front ++ (mark ++ back) ∧ allows (front.getLast?.or before)

/-- At the front of the text or behind a blank: a line begins behind one, the line feed. -/
def behindBlank (before : Option Char) : Bool := before.all Text.isBlank

/-- A comment between `/*` and `*/`. -/
def HasBlock (cs : List Char) : Prop :=
  ∃ front back, cs = front ++ '/' :: '*' :: back ∧ ['*', '/'] <:+: back

variable {s : HashState} {before : Option Char} {c : Char} {cs : List Char}

theorem not_stands_nil {mark : List Char} (hmark : mark ≠ []) {allows : Option Char → Bool} :
    ¬Stands mark allows before [] := by
  rintro ⟨front, back, h, -⟩
  exact hmark (List.append_eq_nil_iff.mp (List.append_eq_nil_iff.mp h.symm).2).1

theorem getLast?_cons_or (c : Char) (front : List Char) (before : Option Char) :
    (c :: front).getLast?.or before = front.getLast?.or (some c) := by
  rw [List.getLast?_cons, Option.some_or, Option.or_some]

/-- A mark stands at the front of a text or further on. -/
theorem stands_cons {mark : List Char} {allows : Option Char → Bool} :
    Stands mark allows before (c :: cs) ↔
      mark <+: c :: cs ∧ allows before ∨ Stands mark allows (some c) cs := by
  constructor
  · rintro ⟨front, back, h, hallows⟩
    cases front with
    | nil => exact .inl ⟨⟨back, h.symm⟩, by simpa using hallows⟩
    | cons d front =>
      obtain ⟨rfl, rfl⟩ := List.cons.inj h
      exact .inr ⟨front, back, rfl, by rwa [getLast?_cons_or] at hallows⟩
  · rintro (⟨⟨back, h⟩, hallows⟩ | ⟨front, back, rfl, hallows⟩)
    · exact ⟨[], back, h.symm, by simpa using hallows⟩
    · exact ⟨c :: front, back, rfl, by rwa [getLast?_cons_or]⟩

/-- A sublist of a shorter text is another text. -/
theorem ne_of_sublist {xs ys : List Char} (h : xs.Sublist cs) (hlt : cs.length < ys.length) :
    xs ≠ ys := by
  rintro rfl
  exact absurd h.length_le (Nat.not_le_of_lt hlt)

/-! ### The first pass -/

/-- Whether a `#` that is read next begins a comment. -/
def HashState.awaits : HashState → Bool
  | start | blanks _ => true
  | text | comment => false

/-- Outside of a comment, a blank is held back, a `#` may begin one, and all else is put out with
what was held back. -/
theorem step_outside (hs : s ≠ .comment) (c : Char) :
    Text.isBlank c ∧ (∃ held, s.step c = ([], .blanks held) ∧ held.reverse = s.held ++ [c]) ∨
      Text.isBlank c = false ∧
        ((c = '#' ∧ s.awaits) ∧ s.step c = ([], .comment) ∨
          ¬(c = '#' ∧ s.awaits) ∧ s.step c = (s.held ++ [c], .text)) := by
  cases hblank : Text.isBlank c with
  | true =>
    refine .inl ⟨rfl, ?_⟩
    cases s with
    | comment => exact absurd rfl hs
    | start | text => exact ⟨[c], by simp [HashState.step, hblank], rfl⟩
    | blanks held => exact ⟨c :: held, step_blanks_of_blank hblank, List.reverse_cons⟩
  | false =>
    refine .inr ⟨rfl, ?_⟩
    cases s with
    | comment => exact absurd rfl hs
    | start | text | blanks held =>
      by_cases hc : c = '#'
      · subst hc
        simp [HashState.step, HashState.awaits, HashState.held, hblank]
      · simp [HashState.step, HashState.held, hblank, hc]

theorem step_sublist (s : HashState) (c : Char) :
    ((s.step c).1 ++ (s.step c).2.held).Sublist (s.held ++ [c]) := by
  by_cases hs : s = .comment
  · subst hs
    by_cases hc : c = '\n'
    · rw [hc]
      exact .refl _
    · rw [step_comment_of_ne hc]
      exact List.nil_sublist _
  · rcases step_outside hs c with ⟨-, held, hstep, hheld⟩ | ⟨-, ⟨-, hstep⟩ | ⟨-, hstep⟩⟩
    · rw [hstep, ← hheld]
      exact .refl _
    · rw [hstep]
      exact List.nil_sublist _
    · rw [hstep]
      exact (List.append_nil _).symm ▸ .refl _

theorem hashFrom_sublist (s : HashState) (cs : List Char) :
    (hashFrom s cs).Sublist (s.held ++ cs) := by
  induction cs generalizing s with
  | nil => rw [hashFrom_nil, List.append_nil]
  | cons c cs ih =>
    have hrest := (ih (s.step c).2).append_left (s.step c).1
    have hstep := (step_sublist s c).append_right cs
    rw [List.append_assoc, List.append_assoc, List.singleton_append] at hstep
    rw [hashFrom_cons]
    exact hrest.trans hstep

/-- Outside of a comment, all is put out just when none begins. -/
theorem hashFrom_eq_iff (hs : s ≠ .comment) (hbefore : s.awaits = behindBlank before) :
    hashFrom s cs = s.held ++ cs ↔ ¬Stands ['#'] behindBlank before cs := by
  induction cs generalizing s before with
  | nil =>
    rw [hashFrom_nil, List.append_nil]
    exact iff_of_true rfl (not_stands_nil (by simp))
  | cons c cs ih =>
    have hmark : ['#'] <+: c :: cs ↔ '#' = c := by simp [List.cons_prefix_cons]
    rw [stands_cons, hmark, hashFrom_cons, ← hbefore]
    rcases step_outside hs c with ⟨hblank, held, hstep, hheld⟩ | ⟨hblank, hcase⟩
    · have hne : '#' ≠ c := by rintro rfl; cases hblank
      have hnext : (HashState.blanks held).awaits = behindBlank (some c) := hblank.symm
      have hrest := ih (s := .blanks held) (by simp) hnext
      rw [HashState.held, hheld, List.append_assoc, List.singleton_append] at hrest
      rw [hstep, List.nil_append, hrest]
      simp [hne]
    · rcases hcase with ⟨⟨rfl, hawaits⟩, hstep⟩ | ⟨hnone, hstep⟩
      · -- what is put out of the comment and behind it is too short
        have hshort : hashFrom .comment cs ≠ s.held ++ '#' :: cs :=
          ne_of_sublist (hashFrom_sublist .comment cs) (by simp [HashState.held]; omega)
        rw [hstep, List.nil_append]
        exact iff_of_false hshort (not_not_intro (.inl ⟨rfl, hawaits⟩))
      · have hnext : HashState.text.awaits = behindBlank (some c) := hblank.symm
        have hrest : hashFrom .text cs = cs ↔ ¬Stands ['#'] behindBlank (some c) cs :=
          ih (by simp) hnext
        rw [hstep, List.append_assoc, List.append_cancel_left_eq, List.singleton_append,
          List.cons_inj_right, hrest, or_iff_right]
        rintro ⟨rfl, hawaits⟩
        exact hnone ⟨rfl, hawaits⟩

theorem withoutHash_sublist (cs : List Char) : (withoutHash cs).Sublist cs :=
  hashFrom_sublist .start cs

theorem withoutHash_eq_iff : withoutHash cs = cs ↔ ¬Stands ['#'] behindBlank none cs :=
  hashFrom_eq_iff (s := .start) (by simp) rfl

/-! ### The second pass -/

theorem blockFrom_sublist (o : Option (List Char)) (cs : List Char) :
    (blockFrom o cs).Sublist ((o.getD []).reverse ++ cs) := by
  fun_induction blockFrom o cs with
  | case1 => exact .refl _
  | case2 cs ih => exact ih
  | case3 c cs _ ih => exact ih.cons_cons c
  | case4 held => simp
  | case5 held cs ih =>
    exact ih.trans ((List.sublist_append_right ['*', '/'] cs).trans (List.sublist_append_right _ _))
  | case6 held c cs _ ih => simpa using ih

theorem hasBlock_cons : HasBlock (c :: cs) ↔
    c = '/' ∧ (∃ back, cs = '*' :: back ∧ ['*', '/'] <:+: back) ∨ HasBlock cs := by
  constructor
  · rintro ⟨front, back, h, hclosed⟩
    cases front with
    | nil =>
      obtain ⟨rfl, rfl⟩ := List.cons.inj h
      exact .inl ⟨rfl, back, rfl, hclosed⟩
    | cons d front =>
      obtain ⟨rfl, rfl⟩ := List.cons.inj h
      exact .inr ⟨front, back, rfl, hclosed⟩
  · rintro (⟨rfl, back, rfl, hclosed⟩ | ⟨front, back, rfl, hclosed⟩)
    · exact ⟨[], back, rfl, hclosed⟩
    · exact ⟨c :: front, back, rfl, hclosed⟩

theorem HasBlock.closed (h : HasBlock cs) : ['*', '/'] <:+: cs := by
  obtain ⟨front, back, rfl, hclosed⟩ := h
  exact hclosed.trans ((List.suffix_append (front ++ ['/', '*']) back).isInfix.trans (by simp))

/-- A comment ends in the text: one that is open, or one that begins in it. -/
def EndsBlock : Option (List Char) → List Char → Prop
  | none, cs => HasBlock cs
  | some _, cs => ['*', '/'] <:+: cs

theorem blockFrom_eq_iff (o : Option (List Char)) (cs : List Char) :
    blockFrom o cs = (o.getD []).reverse ++ cs ↔ ¬EndsBlock o cs := by
  fun_induction blockFrom o cs with
  | case1 => exact iff_of_true rfl (by simp [EndsBlock, HasBlock])
  | case2 cs ih =>
    -- what is open behind the mark ends in the rest of the text
    have hends : EndsBlock none ('/' :: '*' :: cs) ↔ ['*', '/'] <:+: cs := by
      rw [EndsBlock, hasBlock_cons, hasBlock_cons]
      constructor
      · rintro (⟨-, back, h, hclosed⟩ | ⟨h, -⟩ | h)
        · rwa [(List.cons.inj h).2]
        · cases h
        · exact h.closed
      · exact fun hclosed => .inl ⟨rfl, cs, rfl, hclosed⟩
    rw [hends]
    exact ih
  | case3 c cs hpair ih =>
    have hhead : ¬(c = '/' ∧ ∃ back, cs = '*' :: back ∧ ['*', '/'] <:+: back) := by
      rintro ⟨rfl, back, rfl, -⟩
      exact hpair back rfl rfl
    have hrest : blockFrom none cs = cs ↔ ¬HasBlock cs := ih
    rw [EndsBlock, hasBlock_cons, or_iff_right hhead, ← hrest]
    exact List.cons_inj_right c
  | case4 held => exact iff_of_true (List.append_nil _).symm (by simp [EndsBlock])
  | case5 held cs ih =>
    have hshort : blockFrom none cs ≠ held.reverse ++ '*' :: '/' :: cs :=
      ne_of_sublist (blockFrom_sublist none cs) (by simp; omega)
    have hends : ['*', '/'] <:+: '*' :: '/' :: cs := (List.prefix_append ['*', '/'] cs).isInfix
    exact iff_of_false hshort (not_not_intro hends)
  | case6 held c cs hpair ih =>
    have hhead : ¬['*', '/'] <+: c :: cs := by
      rintro ⟨back, h⟩
      obtain ⟨rfl, rfl⟩ := List.cons.inj h
      exact hpair back rfl rfl
    have hrest : blockFrom (some (c :: held)) cs = (c :: held).reverse ++ cs ↔
        ¬['*', '/'] <:+: cs := ih
    rw [List.reverse_cons, List.append_assoc, List.singleton_append] at hrest
    rw [EndsBlock, List.infix_cons_iff, or_iff_right hhead]
    exact hrest

theorem withoutBlock_sublist (cs : List Char) : (withoutBlock cs).Sublist cs :=
  blockFrom_sublist none cs

theorem withoutBlock_eq_iff : withoutBlock cs = cs ↔ ¬HasBlock cs :=
  blockFrom_eq_iff none cs

/-! ### The last pass -/

theorem slashFrom_sublist (skipping : Bool) (before : Option Char) (cs : List Char) :
    (slashFrom skipping before cs).Sublist cs := by
  fun_induction slashFrom skipping before cs with
  | case1 => exact .refl _
  | case2 _ c _ _ ih => exact ih.cons_cons c
  | case3 _ c _ _ ih => exact ih.cons c
  | case4 _ _ c _ _ _ ih => exact ih.cons c
  | case5 _ _ c _ _ _ ih => exact ih.cons_cons c

/-- Outside of a comment, all is put out just when none begins. -/
theorem slashFrom_eq_iff : slashFrom false before cs = cs ↔
    ¬Stands ['/', '/'] opensBehind before cs := by
  induction cs generalizing before with
  | nil => exact iff_of_true rfl (not_stands_nil (by simp))
  | cons c cs ih =>
    have hmark : ['/', '/'] <+: c :: cs ↔ c = '/' ∧ cs.head? = some '/' := by
      cases cs <;> simp [List.cons_prefix_cons, eq_comm]
    rw [stands_cons, hmark, slashFrom, if_neg Bool.false_ne_true]
    split
    · rename_i hopens
      rw [Bool.and_eq_true, Bool.and_eq_true, beq_iff_eq, beq_iff_eq] at hopens
      have hshort : slashFrom true before cs ≠ c :: cs :=
        ne_of_sublist (slashFrom_sublist true before cs) (Nat.lt_succ_self _)
      exact iff_of_false hshort (not_not_intro (.inl hopens))
    · rename_i hnone
      rw [Bool.and_eq_true, Bool.and_eq_true, beq_iff_eq, beq_iff_eq] at hnone
      rw [List.cons_inj_right, ih, or_iff_right hnone]

theorem withoutSlash_sublist (cs : List Char) : (withoutSlash cs).Sublist cs :=
  slashFrom_sublist false none cs

theorem withoutSlash_eq_iff :
    withoutSlash cs = cs ↔ ¬Stands ['/', '/'] opensBehind none cs :=
  slashFrom_eq_iff

/-! ### All three -/

/-- Stripping only deletes, and it does so exactly where a comment begins: a `#` at the start of a
line or behind a blank, a `/*` with a `*/` behind it, or a `//` that no colon or backslash is in
front of. -/
theorem strip_deletes (text : String) :
    (strip text).toList.Sublist text.toList ∧
      (strip text = text ↔
        ¬Stands ['#'] behindBlank none text.toList ∧ ¬HasBlock text.toList ∧
          ¬Stands ['/', '/'] opensBehind none text.toList) := by
  have hslash := withoutSlash_sublist (withoutBlock (withoutHash text.toList))
  have hblock := withoutBlock_sublist (withoutHash text.toList)
  have hhash := withoutHash_sublist text.toList
  have hstrip : (strip text).toList = withoutSlash (withoutBlock (withoutHash text.toList)) :=
    String.toList_ofList
  rw [← String.toList_inj, hstrip, ← withoutHash_eq_iff, ← withoutBlock_eq_iff,
    ← withoutSlash_eq_iff]
  refine ⟨hslash.trans (hblock.trans hhash), fun h => ?_, fun ⟨hh, hb, hs⟩ => by rw [hh, hb, hs]⟩
  -- a pass that took something out would leave too little for the passes behind it
  rw [h] at hslash
  have hh : withoutHash text.toList = text.toList := hhash.antisymm (hslash.trans hblock)
  rw [hh] at h hslash hblock
  have hb : withoutBlock text.toList = text.toList := hblock.antisymm hslash
  rw [hb] at h
  exact ⟨hh, hb, h⟩

end TokenLint.Json.Comment
