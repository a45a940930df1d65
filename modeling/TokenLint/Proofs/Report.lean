import Mathlib.Algebra.GroupWithZero.Nat
import TokenLint.Proofs.Path.Order
import TokenLint.Violation

/-!
# Reports

Sorting a report puts its violations in the order of their places, and leaves those at one place
in the order in which they were found. What a report holds in the end is what the steps have put
into it that made it, whatever was sorted in between.
-/
namespace TokenLint

namespace Location

/-- A place that may stand before another: in an earlier file, on an earlier line of the same one,
or in no later column of the same line. Paths with the same components name the same file. -/
def AtOrBefore (a b : Location) : Prop :=
  Path.compare a.file b.file = .lt ∨
    Path.components a.file = Path.components b.file ∧
      (a.line < b.line ∨ a.line = b.line ∧ a.column ≤ b.column)

def SamePlace (a b : Location) : Prop :=
  Path.components a.file = Path.components b.file ∧ a.line = b.line ∧ a.column = b.column

instance (a b : Location) : Decidable (SamePlace a b) :=
  inferInstanceAs (Decidable (_ ∧ _ ∧ _))

theorem SamePlace.atOrBefore {a b c : Location} (ha : a.SamePlace c) (hb : b.SamePlace c) :
    a.AtOrBefore b := by
  obtain ⟨hfile, hline, hcolumn⟩ := ha
  obtain ⟨hfile', hline', hcolumn'⟩ := hb
  exact .inr ⟨hfile.trans hfile'.symm, .inr ⟨hline.trans hline'.symm,
    Nat.le_of_eq (hcolumn.trans hcolumn'.symm)⟩⟩

end Location

namespace Violation

theorem precedes_iff {a b : Violation} :
    a.precedes b ↔ a.location.AtOrBefore b.location := by
  rw [precedes, Ordering.then_assoc, Ordering.isLE_then_iff_or, Ordering.isLE_then_iff_or,
    Nat.compare_eq_lt, Nat.compare_eq_eq, Nat.isLE_compare, Path.compare_eq_iff]
  rfl

/-- The order of violations compares three keys, one after the other. -/
def compare : Violation → Violation → Ordering :=
  compareLex
    (compareLex (fun a b => Path.compare a.location.file b.location.file)
      (compareOn (·.location.line)))
    (compareOn (·.location.column))

instance : Std.TransCmp Violation.compare := by
  have hfile : Std.TransCmp fun a b : Violation => Path.compare a.location.file b.location.file :=
    Sorting.transCmp_comap _
  unfold Violation.compare
  infer_instance

theorem precedes_trans (a b c : Violation) : a.precedes b → b.precedes c → a.precedes c :=
  @Sorting.isLE_trans _ Violation.compare _ a b c

theorem precedes_total (a b : Violation) : a.precedes b || b.precedes a :=
  @Sorting.isLE_total _ Violation.compare _ a b

end Violation

namespace Report

variable {r : Report}

/-! ### Order -/

/-- Violations as a report has them in the end: all those that were found, by their places, and
at each place in the order in which they were found. -/
structure Arranged (found violations : List Violation) : Prop where
  perm : violations.Perm found
  ordered : violations.Pairwise (·.location.AtOrBefore ·.location)
  stable : ∀ place : Location, violations.filter (·.location.SamePlace place) =
    found.filter (·.location.SamePlace place)

theorem arranged_sort (r : Report) : Arranged r.violations r.sort.violations where
  perm := List.mergeSort_perm _ _
  ordered := (List.pairwise_mergeSort Violation.precedes_trans Violation.precedes_total _).imp
    Violation.precedes_iff.mp
  stable place := by
    refine Sorting.filter_mergeSort Violation.precedes_trans Violation.precedes_total ?_
    intro a _ b _ ha hb
    exact Violation.precedes_iff.mpr ((of_decide_eq_true ha).atOrBefore (of_decide_eq_true hb))

/-! ### Counts -/

/-- One thing that is done to a report. -/
inductive Step where
  | push (v : Violation)
  | append (other : Report)
  | checked (n : Nat)
  | sort

/-- What a step puts into a report. -/
def Step.added : Step → Report
  | push v => ⟨[v], 0⟩
  | append other => other
  | checked n => ⟨[], n⟩
  | sort => {}

def Step.apply (r : Report) : Step → Report
  | push v => r.push v
  | append other => r.append other
  | checked n => r.checked n
  | sort => r.sort

/-- The report that steps have made of an empty one. -/
def after (steps : List Step) : Report := steps.foldl Step.apply {}

theorem apply_spec (r : Report) (step : Step) :
    (step.apply r).violations.Perm (r.violations ++ step.added.violations) ∧
      (step.apply r).filesChecked = r.filesChecked + step.added.filesChecked := by
  cases step with
  | push v => exact ⟨.refl _, rfl⟩
  | append other => exact ⟨.refl _, rfl⟩
  | checked n => exact ⟨.of_eq (List.append_nil _).symm, rfl⟩
  | sort => exact ⟨(List.mergeSort_perm _ _).trans (.of_eq (List.append_nil _).symm), rfl⟩

theorem foldl_apply_spec (steps : List Step) (r : Report) :
    (steps.foldl Step.apply r).violations.Perm
        (r.violations ++ steps.flatMap (·.added.violations)) ∧
      (steps.foldl Step.apply r).filesChecked =
        r.filesChecked + (steps.map (·.added.filesChecked)).sum := by
  induction steps generalizing r with
  | nil => exact ⟨.of_eq (List.append_nil _).symm, rfl⟩
  | cons step steps ih =>
    obtain ⟨hperm, hchecked⟩ := apply_spec r step
    obtain ⟨hmore, hcheckedMore⟩ := ih (step.apply r)
    rw [List.foldl_cons, List.flatMap_cons, List.map_cons, List.sum_cons, ← List.append_assoc,
      ← Nat.add_assoc, ← hchecked]
    exact ⟨hmore.trans (hperm.append_right _), hcheckedMore⟩

/-- After any steps a report holds what each of them has put into it. -/
theorem after_spec (steps : List Step) :
    (after steps).violations.Perm (steps.flatMap (·.added.violations)) ∧
      (after steps).filesChecked = (steps.map (·.added.filesChecked)).sum := by
  have h := foldl_apply_spec steps {}
  rwa [List.nil_append, Nat.zero_add] at h

theorem count_after (steps : List Step) (severity : Severity) :
    (after steps).count severity = (steps.map (·.added.count severity)).sum := by
  rw [count, (after_spec steps).1.countP_eq, List.countP_flatMap]
  rfl

/-- What a report tells in numbers fits together: each violation is counted once, a sort changes
no count, to join reports is to add theirs, and what is told of errors and of a threshold is told
by the counts. -/
structure Tallied (r : Report) : Prop where
  total : r.count .error + r.count .warning + r.count .info = r.violations.length
  sorted : ∀ severity, r.sort.count severity = r.count severity
  joined : ∀ other severity, (r.append other).count severity =
    r.count severity + other.count severity
  hasErrors_iff : r.hasErrors ↔ 0 < r.count .error
  antitone : ∀ low high : Severity, low.rank ≤ high.rank → r.hasAtLeast high → r.hasAtLeast low

theorem total_count (vs : List Violation) :
    vs.countP (·.severity == .error) + vs.countP (·.severity == .warning) +
      vs.countP (·.severity == .info) = vs.length := by
  induction vs with
  | nil => rfl
  | cons v vs ih =>
    rw [List.countP_cons, List.countP_cons, List.countP_cons, List.length_cons, ← ih]
    cases v.severity <;> simp <;> omega

theorem hasAtLeast_iff {severity : Severity} : r.hasAtLeast severity ↔
    ∃ v ∈ r.violations, severity.rank ≤ v.severity.rank := by
  simp [hasAtLeast]

theorem tallied (r : Report) : r.Tallied where
  total := total_count r.violations
  sorted _ := (List.mergeSort_perm _ _).countP_eq _
  joined _ _ := List.countP_append
  hasErrors_iff := by rw [hasErrors, count, List.countP_pos_iff, List.any_eq_true]
  antitone low high hle h := by
    obtain ⟨v, hv, hrank⟩ := hasAtLeast_iff.mp h
    exact hasAtLeast_iff.mpr ⟨v, hv, hle.trans hrank⟩

/-- What is known of a report that steps have made. -/
structure MadeBy (steps : List Step) (r : Report) : Prop where
  violations : r.violations.Perm (steps.flatMap (·.added.violations))
  filesChecked : r.filesChecked = (steps.map (·.added.filesChecked)).sum
  count : ∀ severity, r.count severity = (steps.map (·.added.count severity)).sum
  tallied : r.Tallied

theorem madeBy_after (steps : List Step) : MadeBy steps (after steps) :=
  ⟨(after_spec steps).1, (after_spec steps).2, count_after steps, tallied _⟩

end Report
end TokenLint
