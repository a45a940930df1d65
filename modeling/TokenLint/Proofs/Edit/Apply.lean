import Mathlib.Data.List.Basic
import TokenLint.Edit
import TokenLint.Proofs.Sorting
import TokenLint.Proofs.Text.Cut

/-!
# What applying a plan does

The edits in order are scanned once. One is accepted when it begins no earlier than the last
accepted edit ends and its range is one of the text. The result is the text with the accepted
ranges, and nothing else, replaced: `Replaced` relates a text to such a result, and `apply`
computes the one result there is.
-/
namespace TokenLint.EditPlan

open Text

/-- The accepted ones among edits in order, where nothing may begin before `limit`. -/
def acceptedFrom (cs : List Char) : Nat → List Edit → List Edit
  | _, [] => []
  | limit, e :: es =>
    if limit ≤ e.span.start ∧ IsRange cs e.span then e :: acceptedFrom cs e.span.stop es
    else acceptedFrom cs limit es

/-- The edits of a plan that applying it to a text does not drop. -/
def accepted (plan : EditPlan) (text : String) : List Edit :=
  acceptedFrom text.toList 0 (ordered plan)

/-- `Replaced pos old es new`: with `old` beginning at offset `pos`, `new` is `old` with the range
of each edit taken out and its text put in. What lies between the ranges is the same in both. -/
inductive Replaced : Nat → List Char → List Edit → List Char → Prop
  | done (pos : Nat) (rest : List Char) : Replaced pos rest [] rest
  | edit {pos : Nat} {kept old rest out : List Char} {e : Edit} {es : List Edit}
      (start : e.span.start = pos + size kept) (stop : e.span.stop = e.span.start + size old)
      (more : Replaced e.span.stop rest es out) :
      Replaced pos (kept ++ (old ++ rest)) (e :: es) (kept ++ e.text.toList ++ out)

/-- What is in front of all edits stays. -/
theorem Replaced.append_left {pos : Nat} {old out : List Char} {es : List Edit} (front : List Char)
    (h : Replaced (pos + size front) old es out) :
    Replaced pos (front ++ old) es (front ++ out) := by
  cases h with
  | done => exact .done pos (front ++ old)
  | @edit _ kept old rest out e es start stop more =>
    have hstart : e.span.start = pos + size (front ++ kept) := by
      rw [start, size_append, Nat.add_assoc]
    simpa only [List.append_assoc] using Replaced.edit hstart stop more

theorem precedes_iff {a b : Edit} : a.precedes b ↔
    a.span.start < b.span.start ∨ a.span.start = b.span.start ∧ a.span.stop ≤ b.span.stop := by
  simp [Edit.precedes]

theorem precedes_trans (a b c : Edit) (hab : a.precedes b) (hbc : b.precedes c) :
    a.precedes c := by
  rw [precedes_iff] at *
  omega

theorem precedes_total (a b : Edit) : a.precedes b || b.precedes a := by
  rw [Bool.or_eq_true, precedes_iff, precedes_iff]
  omega

theorem ordered_perm (plan : EditPlan) : (ordered plan).Perm plan :=
  List.mergeSort_perm plan Edit.precedes

theorem ordered_pairwise (plan : EditPlan) : (ordered plan).Pairwise (·.precedes ·) :=
  List.pairwise_mergeSort precedes_trans precedes_total plan

/-- Edits of one range stay in the order in which they were planned. -/
theorem ordered_stable (plan : EditPlan) (span : Span) :
    (ordered plan).filter (·.span = span) = plan.filter (·.span = span) := by
  refine Sorting.filter_mergeSort precedes_trans precedes_total fun a _ b _ ha hb => ?_
  rw [precedes_iff, of_decide_eq_true ha, of_decide_eq_true hb]
  exact Or.inr ⟨rfl, Nat.le_refl _⟩

/-- One pass over edits in order replaces the ranges of the accepted ones. -/
theorem replaced_splice (es : List Edit) (done cs : List Char) :
    Replaced (size done) cs (acceptedFrom (done ++ cs) (size done) es)
      (splice cs (size done) es) := by
  induction es generalizing done cs with
  | nil => exact .done _ cs
  | cons e es ih =>
    by_cases hrange : size done ≤ e.span.start ∧ IsRange (done ++ cs) e.span
    · have ⟨hlimit, hle, hstart, hstop⟩ := hrange
      -- both offsets lie in what is not yet read
      obtain ⟨i, hi⟩ := Nat.exists_eq_add_of_le hlimit
      obtain ⟨j, hj⟩ := Nat.exists_eq_add_of_le (Nat.le_trans hlimit hle)
      rw [hi, isBoundary_append] at hstart
      rw [hj, isBoundary_append] at hstop
      obtain ⟨kept, tail, rfl, hkept⟩ := hstart
      obtain ⟨k, hk⟩ := Nat.exists_eq_add_of_le (show size kept ≤ j by omega)
      rw [hk, isBoundary_append] at hstop
      obtain ⟨old, rest, rfl, hold⟩ := hstop
      have htake : take? (kept ++ (old ++ rest)) (e.span.start - size done) = some kept := by
        rw [hi, Nat.add_sub_cancel_left, ← hkept]
        exact take?_size kept _
      have hdrop : drop? (kept ++ (old ++ rest)) (e.span.stop - size done) = some rest := by
        rw [hj, Nat.add_sub_cancel_left, hk, ← hold, ← size_append, ← List.append_assoc]
        exact drop?_size (kept ++ old) rest
      have hdone : size (done ++ kept ++ old) = e.span.stop := by
        rw [size_append, size_append]
        omega
      rw [acceptedFrom, if_pos hrange, splice, if_neg (by simp; omega), htake, hdrop]
      refine .edit (by omega) (by omega) ?_
      have hmore := ih (done ++ kept ++ old) rest
      rw [hdone] at hmore
      simpa only [List.append_assoc] using hmore
    · rw [acceptedFrom, if_neg hrange, splice]
      split
      · exact ih done cs
      · rename_i hbad
        simp only [Bool.or_eq_true, decide_eq_true_eq, not_or, Nat.not_lt] at hbad
        split
        · rename_i kept rest htake hdrop
          -- a range that can be cut out is one of the text
          obtain ⟨tail, hcs, hkept⟩ := take?_eq_some.mp htake
          obtain ⟨front, hcs', hfront⟩ := drop?_eq_some.mp hdrop
          refine absurd ⟨hbad.1, hbad.2, ?_, ?_⟩ hrange
          · rw [← Nat.add_sub_of_le hbad.1, isBoundary_append]
            exact ⟨kept, tail, hcs, hkept⟩
          · rw [← Nat.add_sub_of_le (Nat.le_trans hbad.1 hbad.2), isBoundary_append]
            exact ⟨front, rest, hcs', hfront⟩
        · exact ih done cs

theorem replaced_apply (plan : EditPlan) (text : String) :
    Replaced 0 text.toList (plan.accepted text) (plan.apply text).toList := by
  have h := replaced_splice (ordered plan) [] text.toList
  simpa only [apply, accepted, String.toList_ofList, size_nil, List.nil_append] using h

/-- A text and the edits leave no choice of the result. -/
theorem Replaced.unique {pos : Nat} {old out out' : List Char} {es : List Edit}
    (h : Replaced pos old es out) (h' : Replaced pos old es out') : out = out' := by
  induction h generalizing out' with
  | done pos rest => cases h'; rfl
  | @edit pos kept old rest out e es start stop more ih =>
    generalize hwhole : kept ++ (old ++ rest) = whole at h'
    cases h' with
    | @edit _ kept' old' rest' out' _ _ start' stop' more' =>
      obtain ⟨rfl, htail⟩ := append_inj_of_size hwhole (by omega)
      obtain ⟨rfl, rfl⟩ := append_inj_of_size htail (by omega)
      rw [ih more']

/-- How a plan is applied to a text. Its edits are scanned by the start, then the end of their
ranges, those of one range as they were planned. -/
structure Applies (plan : EditPlan) (text : String) : Prop where
  perm : (ordered plan).Perm plan
  sorted : (ordered plan).Pairwise fun a b => a.span.start < b.span.start ∨
    a.span.start = b.span.start ∧ a.span.stop ≤ b.span.stop
  stable : ∀ span, (ordered plan).filter (·.span = span) = plan.filter (·.span = span)
  /-- In the text just the ranges of the accepted edits are replaced. -/
  out_iff : ∀ out : String, out = plan.apply text ↔
    Replaced 0 text.toList (acceptedFrom text.toList 0 (ordered plan)) out.toList

/-- Applying a plan scans its edits in order, and replaces in the text the ranges of just the
accepted ones. -/
theorem apply_exact (plan : EditPlan) (text : String) : plan.Applies text := by
  constructor
  case perm => exact ordered_perm plan
  case sorted => exact (ordered_pairwise plan).imp precedes_iff.mp
  case stable => exact ordered_stable plan
  case out_iff =>
    intro out
    constructor
    · rintro rfl
      exact replaced_apply plan text
    · intro h
      exact String.toList_inj.mp (h.unique (replaced_apply plan text))

end TokenLint.EditPlan
