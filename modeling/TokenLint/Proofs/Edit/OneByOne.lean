import TokenLint.Proofs.Edit.Written

/-!
# Plans applied edit by edit

Spliced into the text one at a time, from the last in position to the first, the edits of a plan
without conflicts leave what the one pass leaves: an edit moves nothing in front of it, and there
the next one belongs. Of the order in which edits were planned only that of the edits of one range
matters, and the edits on the two sides of an offset are applied to the two sides of the text.
-/
namespace TokenLint

open Text

namespace Edit

/-- One edit begins inside the range of the other, or both take something out from one offset. -/
def Conflicts (a b : Edit) : Prop :=
  a.span.start < b.span.start ∧ b.span.start < a.span.stop ∨
  b.span.start < a.span.start ∧ a.span.start < b.span.stop ∨
  a.span.start = b.span.start ∧ a.span.start < a.span.stop ∧ b.span.start < b.span.stop

instance (a b : Edit) : Decidable (a.Conflicts b) := inferInstanceAs (Decidable (_ ∨ _ ∨ _))

/-- A text with one edit made; nothing where the range is none of the text. -/
def splice? (e : Edit) (cs : List Char) : Option (List Char) :=
  if e.span.start ≤ e.span.stop then
    (take? cs e.span.start).bind fun kept =>
      (drop? cs e.span.stop).map fun rest => kept ++ e.text.toList ++ rest
  else none

/-- The edit, its range counted from an offset. -/
def countedFrom (offset : Nat) (e : Edit) : Edit :=
  { e with span := ⟨e.span.start - offset, e.span.stop - offset⟩ }

@[simp] theorem countedFrom_start (offset : Nat) (e : Edit) :
    (e.countedFrom offset).span.start = e.span.start - offset := rfl

@[simp] theorem countedFrom_stop (offset : Nat) (e : Edit) :
    (e.countedFrom offset).span.stop = e.span.stop - offset := rfl

@[simp] theorem countedFrom_text (offset : Nat) (e : Edit) :
    (e.countedFrom offset).text = e.text := rfl

/-- Whether the whole range lies at an offset or before it. -/
def UpTo (offset : Nat) (e : Edit) : Prop := e.span.start ≤ offset ∧ e.span.stop ≤ offset

/-- Whether the whole range lies at an offset or behind it. -/
def AtOrBehind (offset : Nat) (e : Edit) : Prop := offset ≤ e.span.start ∧ offset ≤ e.span.stop

instance (offset : Nat) (e : Edit) : Decidable (e.UpTo offset) :=
  inferInstanceAs (Decidable (_ ∧ _))

instance (offset : Nat) (e : Edit) : Decidable (e.AtOrBehind offset) :=
  inferInstanceAs (Decidable (_ ∧ _))

/-- Of ranges in the right order those that do not conflict are apart. -/
theorem apart_of_not_conflicts {a b : Edit} (ha : a.span.start ≤ a.span.stop)
    (hb : b.span.start ≤ b.span.stop) (h : ¬a.Conflicts b) : a.span.Apart b.span := by
  unfold Conflicts at h
  unfold Span.Apart
  omega

theorem splice?_append {e : Edit} {front old : List Char} (back : List Char)
    (start : e.span.start = size front) (stop : e.span.stop = e.span.start + size old) :
    e.splice? (front ++ (old ++ back)) = some (front ++ (e.text.toList ++ back)) := by
  have hdrop : drop? (front ++ (old ++ back)) e.span.stop = some back := by
    rw [stop, start, ← size_append, ← List.append_assoc]
    exact drop?_size (front ++ old) back
  rw [splice?, if_pos (by omega), start, take?_size, Option.bind_some, hdrop, Option.map_some,
    List.append_assoc]

end Edit

namespace EditPlan

/-! ### From the last edit to the first -/

/-- What one pass makes of a text from an offset on is also what single edits make of it, the last
one first. -/
theorem Replaced.foldrM_splice? {pos : Nat} {old out : List Char} {es : List Edit}
    (h : Replaced pos old es out) {done : List Char} (hdone : size done = pos) :
    es.foldrM Edit.splice? (done ++ old) = some (done ++ out) := by
  induction h generalizing done with
  | done pos rest => rfl
  | @edit pos kept old rest out e es start stop more ih =>
    -- the later edits leave everything up to the end of this one's range in place
    have hlater : es.foldrM Edit.splice? (done ++ (kept ++ (old ++ rest))) =
        some ((done ++ kept) ++ (old ++ out)) := by
      have hsize : size (done ++ kept ++ old) = e.span.stop := by
        rw [size_append, size_append]
        omega
      simpa only [List.append_assoc] using ih hsize
    have hfront : e.span.start = size (done ++ kept) := by
      rw [size_append]
      omega
    have hthis := Edit.splice?_append out hfront stop
    rw [List.foldrM_cons, hlater, Option.bind_eq_bind, Option.bind_some, hthis]
    simp only [List.append_assoc]

theorem spread_of_not_conflicts {plan : EditPlan} {cs : List Char}
    (fits : ∀ e ∈ plan, IsRange cs e.span) (free : plan.Pairwise fun a b => ¬a.Conflicts b) :
    plan.Spread cs :=
  ⟨fits, free.imp_of_mem fun ha hb => Edit.apart_of_not_conflicts (fits _ ha).1 (fits _ hb).1⟩

/-! ### The order of planning -/

theorem ordered_congr {plan other : EditPlan} (hperm : other.Perm plan)
    (h : ∀ e ∈ plan, other.filter (·.span = e.span) = plan.filter (·.span = e.span)) :
    ordered other = ordered plan := by
  have hstable : ∀ e ∈ plan,
      (ordered other).filter (·.span = e.span) = plan.filter (·.span = e.span) := fun e he => by
    rw [ordered_stable, h e he]
  exact (ordered_eq ((ordered_perm other).trans hperm) (ordered_pairwise other) hstable).symm

/-! ### Two sides of an offset -/

section Sides

variable {offset : Nat} {p q : EditPlan}

theorem ordered_append (hp : ∀ e ∈ p, e.UpTo offset) (hq : ∀ e ∈ q, e.AtOrBehind offset) :
    ordered (p ++ q) = ordered p ++ ordered q := by
  have hpair : (ordered p ++ ordered q).Pairwise (·.precedes ·) := by
    refine List.pairwise_append.mpr ⟨ordered_pairwise p, ordered_pairwise q, fun a ha b hb => ?_⟩
    have hbefore := hp a ((ordered_perm p).mem_iff.mp ha)
    have hbehind := hq b ((ordered_perm q).mem_iff.mp hb)
    unfold Edit.UpTo at hbefore
    unfold Edit.AtOrBehind at hbehind
    rw [precedes_iff]
    omega
  refine eq_of_stable (ordered_pairwise (p ++ q)) hpair fun span => ?_
  rw [ordered_stable, List.filter_append, List.filter_append, ordered_stable, ordered_stable]

theorem ordered_countedFrom (hq : ∀ e ∈ q, e.AtOrBehind offset) :
    ordered (q.map (·.countedFrom offset)) = (ordered q).map (·.countedFrom offset) := by
  refine (List.map_mergeSort fun a ha b hb => ?_).symm
  have hbehind := hq a ha
  have hbehind' := hq b hb
  unfold Edit.AtOrBehind at hbehind hbehind'
  rw [Bool.eq_iff_iff, precedes_iff, precedes_iff]
  simp only [Edit.countedFrom_start, Edit.countedFrom_stop]
  omega

/-- Where the text begins and where offsets are counted from may be moved together. -/
theorem splice_countedFrom {es : List Edit} (hes : ∀ e ∈ es, e.AtOrBehind offset) {pos : Nat}
    (hpos : offset ≤ pos) (cs : List Char) :
    splice cs pos es = splice cs (pos - offset) (es.map (·.countedFrom offset)) := by
  induction es generalizing pos cs with
  | nil => rfl
  | cons e es ih =>
    obtain ⟨⟨hstart, hstop⟩, hes⟩ := List.forall_mem_cons.mp hes
    have hguard : (decide (e.span.start - offset < pos - offset) ||
        decide (e.span.stop - offset < e.span.start - offset)) =
        (decide (e.span.start < pos) || decide (e.span.stop < e.span.start)) := by
      rw [Bool.eq_iff_iff]
      simp only [Bool.or_eq_true, decide_eq_true_eq]
      omega
    have hkept : e.span.start - offset - (pos - offset) = e.span.start - pos := by omega
    have hrest : e.span.stop - offset - (pos - offset) = e.span.stop - pos := by omega
    rw [List.map_cons, splice, splice, Edit.countedFrom_start, Edit.countedFrom_stop,
      Edit.countedFrom_text, hguard, hkept, hrest, ← ih hes hpos]
    simp only [← ih hes hstop]

/-- Edits behind an offset leave what is in front of it. -/
theorem splice_behind {es : List Edit} (hes : ∀ e ∈ es, e.AtOrBehind offset)
    {front : List Char} {pos : Nat} (hpos : pos + size front = offset) (back : List Char) :
    splice (front ++ back) pos es = front ++ splice back offset es := by
  induction es with
  | nil => rfl
  | cons e es ih =>
    obtain ⟨⟨hstart, hstop⟩, hes⟩ := List.forall_mem_cons.mp hes
    have hguard : (decide (e.span.start < pos) || decide (e.span.stop < e.span.start)) =
        (decide (e.span.start < offset) || decide (e.span.stop < e.span.start)) := by
      rw [Bool.eq_iff_iff]
      simp only [Bool.or_eq_true, decide_eq_true_eq]
      omega
    have hkept : e.span.start - pos = size front + (e.span.start - offset) := by omega
    have hrest : e.span.stop - pos = size front + (e.span.stop - offset) := by omega
    rw [splice, splice, hguard, hkept, hrest, take?_append_right, drop?_append_right, ih hes]
    split
    · rfl
    · cases take? back (e.span.start - offset) with
      | none => rfl
      | some kept =>
        cases drop? back (e.span.stop - offset) with
        | none => rfl
        | some rest => simp only [Option.map_some, List.append_assoc]

/-- The edits before an offset change what is in front of it, those behind it what is behind. -/
theorem splice_append {es fs : List Edit} (hes : ∀ e ∈ es, e.UpTo offset)
    (hfs : ∀ e ∈ fs, e.AtOrBehind offset) {front : List Char} {pos : Nat}
    (hpos : pos + size front = offset) (back : List Char) :
    splice (front ++ back) pos (es ++ fs) = splice front pos es ++ splice back offset fs := by
  induction es generalizing front pos with
  | nil => exact splice_behind hfs hpos back
  | cons e es ih =>
    obtain ⟨⟨hstart, hstop⟩, hes⟩ := List.forall_mem_cons.mp hes
    rw [List.cons_append, splice, splice]
    split
    · exact ih hes hpos
    · rename_i hguard
      simp only [Bool.or_eq_true, decide_eq_true_eq, not_or, Nat.not_lt] at hguard
      rw [take?_append_left back (by omega), drop?_append_left back (by omega)]
      cases htake : take? front (e.span.start - pos) with
      | none => exact ih hes hpos
      | some kept =>
        cases hdrop : drop? front (e.span.stop - pos) with
        | none => exact ih hes hpos
        | some rest =>
          -- what is not yet read begins where the range ends
          obtain ⟨head, rfl, hhead⟩ := drop?_eq_some.mp hdrop
          have hnext : e.span.stop + size rest = offset := by
            rw [size_append] at hpos
            omega
          simp only [Option.map_some, ih hes hnext, List.append_assoc]

theorem apply_append (hp : ∀ e ∈ p, e.UpTo offset) (hq : ∀ e ∈ q, e.AtOrBehind offset)
    {front : String} (hfront : size front.toList = offset) (back : String) :
    apply (p ++ q) (front ++ back) =
      p.apply front ++ apply (q.map (·.countedFrom offset)) back := by
  have hp' : ∀ e ∈ ordered p, e.UpTo offset := fun e he =>
    hp e ((ordered_perm p).mem_iff.mp he)
  have hq' : ∀ e ∈ ordered q, e.AtOrBehind offset := fun e he =>
    hq e ((ordered_perm q).mem_iff.mp he)
  rw [apply, apply, apply, ordered_append hp hq, ordered_countedFrom hq, String.toList_append,
    splice_append hp' hq' (by omega), splice_countedFrom hq' (Nat.le_refl offset), Nat.sub_self,
    String.ofList_append]

end Sides

/-- Of a plan whose edits fit the text and do not conflict, one pass makes what single edits make,
spliced in from the last position to the first. Another order of planning changes nothing if it
keeps that of the edits of one range, and plans for the two sides of a place change one side
each. -/
theorem apply_one_by_one (text : String) :
    (∀ plan : EditPlan, (∀ e ∈ plan, IsRange text.toList e.span) →
      plan.Pairwise (fun a b => ¬a.Conflicts b) →
      (ordered plan).foldrM Edit.splice? text.toList = some (plan.apply text).toList ∧
      ∀ other : EditPlan, other.Perm plan →
        (∀ e ∈ plan, other.filter (·.span = e.span) = plan.filter (·.span = e.span)) →
        other.apply text = plan.apply text) ∧
    ∀ (p q : EditPlan) (front back : String), front ++ back = text →
      (∀ e ∈ p, e.UpTo (size front.toList)) → (∀ e ∈ q, e.AtOrBehind (size front.toList)) →
      apply (p ++ q) text =
        p.apply front ++ apply (q.map (·.countedFrom (size front.toList))) back := by
  refine ⟨fun plan fits free => ⟨?_, fun other hperm hspans => ?_⟩, ?_⟩
  · have hreplaced := (spread_of_not_conflicts fits free).replaced
    exact hreplaced.foldrM_splice? size_nil
  · rw [apply, apply, ordered_congr hperm hspans]
  · rintro p q front back rfl hp hq
    exact apply_append hp hq rfl back

/-- A deletion, insertions at both of its edges, and two of them at one offset. -/
def edges : EditPlan := [.delete ⟨4, 8⟩, .insert 8 "X", .insert 4 "Y", .insert 4 "Z"]

theorem edges_one_by_one :
    (∀ e ∈ edges, IsRange "abé1234def".toList e.span) ∧
    edges.Pairwise (fun a b => ¬a.Conflicts b) ∧
    (ordered edges).foldrM Edit.splice? "abé1234def".toList = some "abéYZXdef".toList ∧
    apply [.insert 4 "Y", .insert 8 "X", .insert 4 "Z", .delete ⟨4, 8⟩] "abé1234def" =
      "abéYZXdef" ∧
    apply ([.insert 4 "Y", ⟨⟨0, 1⟩, "A"⟩] ++ edges) "abé1234def" =
      apply [.insert 4 "Y", ⟨⟨0, 1⟩, "A"⟩] "abé" ++
        apply [.delete ⟨0, 4⟩, .insert 4 "X", .insert 0 "Y", .insert 0 "Z"] "1234def" := by
  have hfits : ∀ e ∈ edges, IsRange "abé1234def".toList e.span := by decide
  have hfree : edges.Pairwise fun a b => ¬a.Conflicts b := by decide
  have hordered : ordered edges =
      [.insert 4 "Y", .insert 4 "Z", .delete ⟨4, 8⟩, .insert 8 "X"] := by
    simp [ordered, edges, List.mergeSort, Edit.precedes, Edit.insert, Edit.delete]
  have happly : edges.apply "abé1234def" = "abéYZXdef" := by
    rw [apply, hordered]
    decide
  obtain ⟨hsplices, hother⟩ := (apply_one_by_one "abé1234def").1 edges hfits hfree
  rw [happly] at hsplices hother
  refine ⟨hfits, hfree, hsplices, hother _ (by decide) (by decide), ?_⟩
  exact (apply_one_by_one "abé1234def").2 [.insert 4 "Y", ⟨⟨0, 1⟩, "A"⟩] edges "abé" "1234def"
    (by decide) (by decide) (by decide)

end EditPlan
end TokenLint
