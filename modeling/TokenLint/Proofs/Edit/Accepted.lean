import TokenLint.Proofs.Edit.Image

/-!
# The edits that are applied

What a plan makes of a text is what its accepted edits make of it, and these are spread. An edit
that all others are apart from is accepted.
-/
namespace TokenLint.EditPlan

open Text

theorem acceptedFrom_sublist (cs : List Char) (es : List Edit) (limit : Nat) :
    (acceptedFrom cs limit es).Sublist es := by
  induction es generalizing limit with
  | nil => exact .slnil
  | cons e es ih =>
    rw [acceptedFrom]
    split
    · exact (ih _).cons_cons e
    · exact (ih limit).cons e

theorem fits_of_mem_acceptedFrom {cs : List Char} {es : List Edit} {limit : Nat} {e : Edit}
    (h : e ∈ acceptedFrom cs limit es) : IsRange cs e.span := by
  induction es generalizing limit with
  | nil => cases h
  | cons a es ih =>
    rw [acceptedFrom] at h
    split at h
    · rename_i haccepted
      rcases List.mem_cons.mp h with rfl | h
      · exact haccepted.2
      · exact ih h
    · exact ih h

variable {plan : EditPlan} {text : String}

theorem mem_plan_of_mem_accepted {e : Edit} (h : e ∈ plan.accepted text) : e ∈ plan :=
  (ordered_perm plan).mem_iff.mp ((acceptedFrom_sublist _ _ _).mem h)

theorem spread_accepted (plan : EditPlan) (text : String) :
    Spread text.toList (plan.accepted text) :=
  ⟨fun _ he => fits_of_mem_acceptedFrom he, (acceptedFrom_chain _ _ _).2.imp Or.inl⟩

/-- To apply the accepted edits is to apply the plan. -/
theorem apply_accepted (plan : EditPlan) (text : String) :
    apply (plan.accepted text) text = plan.apply text := by
  have hsorted : (plan.accepted text).Pairwise (·.precedes ·) :=
    (ordered_pairwise plan).sublist (acceptedFrom_sublist _ _ _)
  have hreplaced := (spread_accepted plan text).replaced
  rw [ordered, List.mergeSort_of_pairwise (by simpa using hsorted)] at hreplaced
  exact String.toList_inj.mp (hreplaced.unique (replaced_apply plan text))

/-- An edit that is passed over overlaps with one that is applied. -/
theorem exists_overlap_of_not_mem {cs : List Char} {e : Edit} (hfit : IsRange cs e.span)
    (es : List Edit) (limit : Nat) (hlimit : limit ≤ e.span.start)
    (order : es.Pairwise (·.precedes ·)) (he : e ∈ es) (hnot : e ∉ acceptedFrom cs limit es) :
    ∃ a ∈ acceptedFrom cs limit es, ¬a.span.Apart e.span := by
  induction es generalizing limit with
  | nil => cases he
  | cons a es ih =>
    obtain ⟨hfirst, order⟩ := List.pairwise_cons.mp order
    have hae : e ≠ a := by
      rintro rfl
      rw [acceptedFrom, if_pos ⟨hlimit, hfit⟩] at hnot
      exact hnot List.mem_cons_self
    have he := (List.mem_cons.mp he).resolve_left hae
    rw [acceptedFrom] at hnot ⊢
    split
    · rename_i haccepted
      rw [if_pos haccepted] at hnot
      rcases Nat.lt_or_ge e.span.start a.span.stop with hover | hbehind
      · refine ⟨a, List.mem_cons_self, ?_⟩
        have horder := precedes_iff.mp (hfirst e he)
        have hle := hfit.1
        unfold Span.Apart
        omega
      · obtain ⟨b, hb, hoverlap⟩ :=
          ih _ hbehind order he fun hmem => hnot (List.mem_cons_of_mem a hmem)
        exact ⟨b, List.mem_cons_of_mem a hb, hoverlap⟩
    · rename_i hrejected
      rw [if_neg hrejected] at hnot
      exact ih limit hlimit order he hnot

theorem exists_overlap {e : Edit} (hfit : IsRange text.toList e.span) (he : e ∈ plan)
    (hnot : e ∉ plan.accepted text) : ∃ a ∈ plan.accepted text, ¬a.span.Apart e.span :=
  exists_overlap_of_not_mem hfit _ 0 (Nat.zero_le _) (ordered_pairwise plan)
    ((ordered_perm plan).mem_iff.mpr he) hnot

/-- An edit that has no conflict is applied, whatever becomes of others. -/
theorem mem_accepted_of_apart {e : Edit} (hfit : IsRange text.toList e.span)
    (hapart : ∀ a ∈ plan, a.span.Apart e.span ∨ a = e) (he : e ∈ plan) :
    e ∈ plan.accepted text := by
  by_contra hnot
  obtain ⟨a, ha, hoverlap⟩ := exists_overlap hfit he hnot
  rcases hapart a (mem_plan_of_mem_accepted ha) with h | rfl
  · exact hoverlap h
  · exact hnot ha

end TokenLint.EditPlan
