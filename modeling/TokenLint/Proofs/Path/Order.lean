import TokenLint.Proofs.Path.Components
import TokenLint.Proofs.Sorting

/-!
# The order of paths

Paths are ordered as their components are, and paths with the same components are not told apart.
-/
namespace TokenLint.Path

/-- What tells apart components of one kind. -/
def Component.label : Component → String
  | normal name => name
  | _ => ""

/-- Components are compared by their kind, and names by their letters. -/
theorem Component.compare_eq : Component.compare =
    compareLex (compareOn Component.rank) (compareOn Component.label) := by
  funext a b
  cases a <;> cases b <;> rfl

instance : Std.TransCmp Component.compare := by
  rw [Component.compare_eq]
  infer_instance

instance : Std.LawfulEqCmp Component.compare where
  eq_of_compare {a b} h := by
    rw [Component.compare_eq] at h
    obtain ⟨hrank, hlabel⟩ := Ordering.then_eq_eq.mp h
    have hrank : a.rank = b.rank := Std.LawfulEqCmp.eq_of_compare hrank
    have hlabel : a.label = b.label := Std.LawfulEqCmp.eq_of_compare hlabel
    cases a <;> cases b <;> simp_all [Component.rank, Component.label]

theorem compareComponents_eq : compareComponents = List.compareLex Component.compare := by
  funext as bs
  induction as generalizing bs with
  | nil => cases bs <;> rfl
  | cons a as ih =>
    cases bs with
    | nil => rfl
    | cons b bs => rw [compareComponents, List.compareLex_cons_cons, ih]

instance : Std.TransCmp Path.compare := by
  have hcomponents : Std.TransCmp compareComponents := by
    rw [compareComponents_eq]
    infer_instance
  exact Sorting.transCmp_comap components

/-- Equal in order are just the paths with the same components. -/
theorem compare_eq_iff {p q : String} : compare p q = .eq ↔ components p = components q := by
  rw [compare, compareComponents_eq]
  exact Std.LawfulEqCmp.compare_eq_iff_eq

end TokenLint.Path
