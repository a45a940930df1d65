import Mathlib.Data.List.Sort
import Mathlib.Order.Compare

/-!
# Sorted lists

A sort by a comparison keeps elements in order that the comparison does not tell apart. Where it
tells all elements of a list apart, the order in which they came does not matter.
-/
namespace TokenLint.Sorting

variable {α β : Type}

/-- To compare by a key is to compare. -/
theorem transCmp_comap {cmp : β → β → Ordering} [Std.TransCmp cmp] (key : α → β) :
    Std.TransCmp fun a b => cmp (key a) (key b) where
  eq_swap := Std.OrientedCmp.eq_swap
  isLE_trans := Std.TransCmp.isLE_trans

theorem isLE_trans {cmp : α → α → Ordering} [Std.TransCmp cmp] (a b c : α)
    (hab : (cmp a b).isLE) (hbc : (cmp b c).isLE) : (cmp a c).isLE :=
  Std.TransCmp.isLE_trans hab hbc

theorem isLE_total {cmp : α → α → Ordering} [Std.OrientedCmp cmp] (a b : α) :
    (cmp a b).isLE || (cmp b a).isLE := by
  have hswap : cmp b a = (cmp a b).swap := Std.OrientedCmp.eq_swap
  rw [hswap]
  cases cmp a b <;> rfl

variable {le : α → α → Bool} (trans : ∀ a b c, le a b → le b c → le a c)
  (total : ∀ a b, le a b || le b a)
include trans total

/-- Elements that may stand in any order stay in theirs. -/
theorem filter_mergeSort {p : α → Bool} {as : List α}
    (hp : ∀ a ∈ as, ∀ b ∈ as, p a → p b → le a b) :
    (as.mergeSort le).filter p = as.filter p := by
  have hpair : (as.filter p).Pairwise (le · ·) := by
    refine List.pairwise_of_forall_mem_list fun a ha b hb => ?_
    obtain ⟨ha, hpa⟩ := List.mem_filter.mp ha
    obtain ⟨hb, hpb⟩ := List.mem_filter.mp hb
    exact hp a ha b hb hpa hpb
  have hsub := (List.sublist_mergeSort trans total hpair List.filter_sublist).filter p
  rw [List.filter_filter] at hsub
  simp only [Bool.and_self] at hsub
  exact (hsub.eq_of_length ((List.mergeSort_perm as le).filter p).length_eq.symm).symm

/-- What can stand in one order only is sorted into it from any other. -/
theorem mergeSort_congr {as bs : List α} (h : as.Perm bs)
    (antisymm : ∀ a ∈ as, ∀ b ∈ as, le a b → le b a → a = b) :
    as.mergeSort le = bs.mergeSort le := by
  have hperm := (List.mergeSort_perm as le).trans (h.trans (List.mergeSort_perm bs le).symm)
  refine hperm.eq_of_pairwise (fun a b ha hb hab hba => ?_)
    (List.pairwise_mergeSort trans total as) (List.pairwise_mergeSort trans total bs)
  exact antisymm a ((List.mergeSort_perm as le).mem_iff.mp ha) b
    (h.mem_iff.mpr ((List.mergeSort_perm bs le).mem_iff.mp hb)) hab hba

end TokenLint.Sorting
