import Mathlib.Data.List.Pairwise
import TokenLint.Proofs.Edit.Apply

/-!
# Plans without conflicts

Two edits of a plan conflict when they differ and their ranges overlap. Of a plan whose ranges fit
the text, every edit is applied just when no two conflict: what is dropped then repeats an edit
that was applied.
-/
namespace TokenLint.EditPlan

open Text

/-- Any two edits are apart or the same edit twice. -/
def ConflictFree (plan : EditPlan) : Prop :=
  plan.Pairwise fun a b => a.span.Apart b.span ∨ a = b

/-- Every edit of the plan is applied, itself or a repeat of it. -/
def Kept (plan : EditPlan) (text : String) : Prop := ∀ e ∈ plan, e ∈ plan.accepted text

theorem conflictFree_of_forall {plan : EditPlan}
    (h : ∀ a ∈ plan, ∀ b ∈ plan, a.span.Apart b.span ∨ a = b) : plan.ConflictFree :=
  List.pairwise_of_forall_mem_list h

theorem ConflictFree.forall {plan : EditPlan} (h : plan.ConflictFree) {a b : Edit}
    (ha : a ∈ plan) (hb : b ∈ plan) : a.span.Apart b.span ∨ a = b := by
  have hsymm : Std.Symm fun a b : Edit => a.span.Apart b.span ∨ a = b :=
    ⟨fun _ _ h => h.imp Span.Apart.symm Eq.symm⟩
  by_cases he : a = b
  · exact Or.inr he
  · exact List.Pairwise.forall h ha hb he

/-- Accepted edits follow on one another, none before the limit. -/
theorem acceptedFrom_chain (cs : List Char) (es : List Edit) (limit : Nat) :
    (∀ e ∈ acceptedFrom cs limit es, limit ≤ e.span.start) ∧
    (acceptedFrom cs limit es).Pairwise fun a b => a.span.stop ≤ b.span.start := by
  induction es generalizing limit with
  | nil => exact ⟨by simp [acceptedFrom], .nil⟩
  | cons e es ih =>
    rw [acceptedFrom]
    split
    · rename_i h
      obtain ⟨hlater, hchain⟩ := ih e.span.stop
      refine ⟨fun a ha => ?_, List.pairwise_cons.mpr ⟨hlater, hchain⟩⟩
      rcases List.mem_cons.mp ha with rfl | ha
      · exact h.1
      · exact Nat.le_trans h.1 (Nat.le_trans h.2.1 (hlater a ha))
    · exact ih limit

/-- Scanning edits in order, only those are passed over of which `P` is known: `P` says of an edit
that begins before the limit that it repeats the one accepted last. -/
theorem mem_acceptedFrom {cs : List Char} (es : List Edit) (limit : Nat) (P : Edit → Prop)
    (order : es.Pairwise (·.precedes ·))
    (free : es.Pairwise fun a b => a.span.Apart b.span ∨ a = b)
    (fits : ∀ e ∈ es, IsRange cs e.span) (start : ∀ e ∈ es, limit ≤ e.span.start ∨ P e) :
    ∀ e ∈ es, e ∈ acceptedFrom cs limit es ∨ P e := by
  induction es generalizing limit P with
  | nil => simp
  | cons e es ih =>
    obtain ⟨hfirst, order⟩ := List.pairwise_cons.mp order
    obtain ⟨hapart, free⟩ := List.pairwise_cons.mp free
    have fits' : ∀ a ∈ es, IsRange cs a.span := fun a ha => fits a (List.mem_cons_of_mem e ha)
    rw [acceptedFrom]
    split
    · have hnext : ∀ a ∈ es, e.span.stop ≤ a.span.start ∨ a = e := by
        intro a ha
        rcases hapart a ha with hea | rfl
        · have horder := precedes_iff.mp (hfirst a ha)
          have hle := (fits' a ha).1
          unfold Span.Apart at hea
          omega
        · exact Or.inr rfl
      intro a ha
      rcases List.mem_cons.mp ha with rfl | ha
      · exact Or.inl List.mem_cons_self
      · rcases ih e.span.stop (· = e) order free fits' hnext a ha with h | rfl
        · exact Or.inl (List.mem_cons_of_mem e h)
        · exact Or.inl List.mem_cons_self
    · rename_i hdropped
      intro a ha
      rcases List.mem_cons.mp ha with rfl | ha
      · rcases start a List.mem_cons_self with h | h
        · exact absurd ⟨h, fits a List.mem_cons_self⟩ hdropped
        · exact Or.inr h
      · exact ih limit P order free fits'
          (fun b hb => start b (List.mem_cons_of_mem e hb)) a ha

/-- Where all ranges fit the text, the plans that lose no edit are those without conflicts. -/
theorem kept_iff_conflictFree {plan : EditPlan} {text : String}
    (fits : ∀ e ∈ plan, IsRange text.toList e.span) : plan.Kept text ↔ plan.ConflictFree := by
  have hperm := ordered_perm plan
  constructor
  · intro hkept
    have hchain := (acceptedFrom_chain text.toList (ordered plan) 0).2
    refine conflictFree_of_forall fun a ha b hb => ?_
    have hfree : ConflictFree (plan.accepted text) := hchain.imp fun h => Or.inl (Or.inl h)
    exact hfree.forall (hkept a ha) (hkept b hb)
  · intro hfree e he
    have hfree' : ConflictFree (ordered plan) := conflictFree_of_forall fun a ha b hb =>
      hfree.forall (hperm.mem_iff.mp ha) (hperm.mem_iff.mp hb)
    have h := mem_acceptedFrom (ordered plan) 0 (fun _ => False) (ordered_pairwise plan) hfree'
      (fun a ha => fits a (hperm.mem_iff.mp ha)) (fun a _ => Or.inl (Nat.zero_le _))
      e (hperm.mem_iff.mpr he)
    exact h.resolve_right id

end TokenLint.EditPlan
