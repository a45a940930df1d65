import TokenLint.Codemod.Layout
import TokenLint.Proofs.Text.Words

/-!
# What is left of the classes of a wrapped element

A wrapper is called for by a group of classes. The groups have no class in common, and the wrapper
takes no class of another group. So the classes that are left call for a wrapper again just when
another group was complete from the start.
-/
namespace TokenLint.Codemod.Layout.Wrapper

/-- The classes that call for the wrapper. -/
def group : Wrapper → List String
  | container => containerClasses
  | .section classes _ => classes

def groups : List (List String) := containerClasses :: sectionClasses.map (·.1)

def all : List Wrapper :=
  container :: sectionClasses.map fun (classes, size) => .section classes size

/-- The classes that are left on the element in the wrapper. -/
def left (w : Wrapper) (classes : List String) : List String :=
  Text.distinct (classes.filter (!w.consumed.contains ·))

theorem mem_all_of_ofClasses? {has : String → Bool} {w : Wrapper} (h : ofClasses? has = some w) :
    w ∈ all := by
  unfold ofClasses? at h
  split at h
  · obtain rfl := Option.some.inj h
    exact List.mem_cons_self
  · obtain ⟨p, hp, rfl⟩ := Option.map_eq_some_iff.mp h
    exact List.mem_cons_of_mem _ (List.mem_map_of_mem (List.mem_of_find?_eq_some hp))

theorem ofClasses?_eq_none_iff (classes : List String) :
    ofClasses? classes.contains = none ↔ ∀ g ∈ groups, ∃ c ∈ g, c ∉ classes := by
  have hgroup : ∀ g : List String, g.all classes.contains = false ↔ ∃ c ∈ g, c ∉ classes := by
    simp
  unfold ofClasses? groups
  rw [List.forall_mem_cons, ← hgroup]
  cases containerClasses.all classes.contains with
  | true => simp
  | false =>
    rw [if_neg Bool.false_ne_true, Option.map_eq_none_iff, List.find?_eq_none, List.forall_mem_map]
    simp only [true_and, ← hgroup, Bool.not_eq_true]

/-- A wrapper takes its own group, and no class of another one. -/
theorem consumed_groups : ∀ w ∈ all, w.group ≠ [] ∧ (∀ c ∈ w.group, c ∈ w.consumed) ∧
    ∀ g ∈ groups, g ≠ w.group → ∀ c ∈ g, c ∉ w.consumed := by
  decide +kernel

theorem ofClasses?_left_eq_none_iff {classes : List String} {w : Wrapper}
    (h : ofClasses? classes.contains = some w) :
    ofClasses? (w.left classes).contains = none ↔
      ∀ g ∈ groups, g ≠ w.group → ∃ c ∈ g, c ∉ classes := by
  obtain ⟨hne, hown, hother⟩ := consumed_groups w (mem_all_of_ofClasses? h)
  have hleft : ∀ c, c ∈ w.left classes ↔ c ∈ classes ∧ c ∉ w.consumed := fun c => by
    rw [left, Text.mem_distinct, List.mem_filter]
    simp
  rw [ofClasses?_eq_none_iff]
  refine forall₂_congr fun g hg => ?_
  by_cases hgroup : g = w.group
  · obtain ⟨c, hc⟩ := List.exists_mem_of_ne_nil g (by rwa [hgroup])
    refine iff_of_true ⟨c, hc, fun hmem => ?_⟩ (fun hneg => absurd hgroup hneg)
    exact ((hleft c).mp hmem).2 (hown c (by rwa [← hgroup]))
  · have hiff : ∀ c ∈ g, c ∉ w.left classes ↔ c ∉ classes := fun c hc => by
      rw [hleft]
      simp [hother g hg hgroup c hc]
    simp only [forall_const, hgroup, ne_eq, not_false_eq_true]
    exact exists_congr fun c => and_congr_right (hiff c)

end TokenLint.Codemod.Layout.Wrapper
