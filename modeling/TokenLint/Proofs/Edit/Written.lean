import TokenLint.Proofs.Edit.Image

/-!
# Where an edit is written

The edits of a spread plan are written one behind the other. At a place that no edit crosses, what
is inserted there is written in the order of the plan, between the new text of what is before the
place and of what is behind it.
-/
namespace TokenLint.EditPlan

open Text

/-- Where an offset comes to stand, given the edits before it. -/
def position (es : List Edit) (offset : Nat) : Nat := offset - removed es + inserted es

/-- The range of the new text that is an edit's own text. -/
def written (plan : EditPlan) (e : Edit) : Span :=
  let start := position ((ordered plan).takeWhile (· != e)) e.span.start
  ⟨start, start + size e.text.toList⟩

/-- What is inserted at an offset, in the order of the plan. -/
def insertions (plan : EditPlan) (offset : Nat) : List Edit :=
  plan.filter (·.span = ⟨offset, offset⟩)

/-- No edit begins before an offset and ends behind it. -/
def Uncrossed (plan : EditPlan) (offset : Nat) : Prop :=
  ∀ e ∈ plan, e.span.stop ≤ offset ∨ offset ≤ e.span.start

/-- No edit begins or ends at an offset, and none crosses it. -/
def Untouched (plan : EditPlan) (offset : Nat) : Prop :=
  ∀ e ∈ plan, e.span.stop < offset ∨ offset < e.span.start

theorem Untouched.uncrossed {plan : EditPlan} {offset : Nat} (h : plan.Untouched offset) :
    plan.Uncrossed offset := fun e he => (h e he).imp Nat.le_of_lt Nat.le_of_lt

/-- Two edits that come before each other have one range. -/
theorem span_eq_of_precedes {e f : Edit} (hef : e.precedes f) (hfe : f.precedes e) :
    f.span = e.span := by
  rw [precedes_iff] at hfe hef
  exact congrArg₂ Span.mk (show f.span.start = e.span.start by omega)
    (show f.span.stop = e.span.stop by omega)

theorem mem_iff_of_filter_eq {es fs : List Edit}
    (h : ∀ span, es.filter (·.span = span) = fs.filter (·.span = span)) (e : Edit) :
    e ∈ es ↔ e ∈ fs := by
  have hone := congrArg (e ∈ ·) (h e.span)
  simpa only [List.mem_filter, decide_true, and_true, eq_iff_iff] using hone

/-- Edits in order, those of one range in a given order, leave no choice. -/
theorem eq_of_stable {es fs : List Edit} (hes : es.Pairwise (·.precedes ·))
    (hfs : fs.Pairwise (·.precedes ·))
    (h : ∀ span, es.filter (·.span = span) = fs.filter (·.span = span)) : es = fs := by
  have hmem := mem_iff_of_filter_eq h
  induction es generalizing fs with
  | nil =>
    exact (List.eq_nil_iff_forall_not_mem.mpr fun f hf => List.not_mem_nil ((hmem f).mpr hf)).symm
  | cons e es ih =>
    cases fs with
    | nil => cases (hmem e).mp List.mem_cons_self
    | cons f fs =>
      obtain ⟨hfirst, hes⟩ := List.pairwise_cons.mp hes
      obtain ⟨hfirst', hrest⟩ := List.pairwise_cons.mp hfs
      have hspan : f.span = e.span := by
        rcases List.mem_cons.mp ((hmem e).mp List.mem_cons_self) with rfl | he
        · rfl
        rcases List.mem_cons.mp ((hmem f).mpr List.mem_cons_self) with rfl | hf
        · rfl
        exact span_eq_of_precedes (hfirst f hf) (hfirst' e he)
      have hef : e = f := by
        have hheads := h e.span
        rw [List.filter_cons_of_pos (by simp), List.filter_cons_of_pos (by simp [hspan])] at hheads
        exact (List.cons.inj hheads).1
      subst hef
      have htails : ∀ span, es.filter (·.span = span) = fs.filter (·.span = span) := by
        intro span
        have hspans := h span
        rw [List.filter_cons, List.filter_cons] at hspans
        split at hspans
        · exact (List.cons.inj hspans).2
        · exact hspans
      exact congrArg _ (ih hes hrest htails (mem_iff_of_filter_eq htails))

/-- What is in order, with the edits of one range as they were planned, is the order of a plan. -/
theorem ordered_eq {plan : EditPlan} {es : List Edit} (hperm : es.Perm plan)
    (hes : es.Pairwise (·.precedes ·))
    (h : ∀ e ∈ plan, es.filter (·.span = e.span) = plan.filter (·.span = e.span)) :
    ordered plan = es := by
  refine eq_of_stable (ordered_pairwise plan) hes fun span => ?_
  rw [ordered_stable]
  by_cases hspan : ∃ e ∈ plan, e.span = span
  · obtain ⟨e, he, rfl⟩ := hspan
    exact (h e he).symm
  · have hnone : ∀ e ∈ plan, ¬decide (e.span = span) = true := fun e he => by
      simpa using fun h => hspan ⟨e, he, h⟩
    rw [List.filter_eq_nil_iff.mpr hnone,
      List.filter_eq_nil_iff.mpr fun e he => hnone e (hperm.mem_iff.mp he)]

theorem written_eq {plan : EditPlan} {e : Edit} {es fs : List Edit}
    (h : ordered plan = es ++ e :: fs) (hnew : e ∉ es) : plan.written e =
      ⟨position es e.span.start, position es e.span.start + size e.text.toList⟩ := by
  have hall : ∀ a ∈ es, (a != e) = true := fun a ha => bne_iff_ne.mpr fun hae => hnew (hae ▸ ha)
  have htake : (ordered plan).takeWhile (· != e) = es := by
    rw [h, List.takeWhile_append_of_pos hall, List.takeWhile_cons, bne_self_eq_false,
      if_neg Bool.false_ne_true, List.append_nil]
  rw [written, htake]

/-- Edits in a row take out no more than there is between the place before and behind them. -/
theorem removed_le {es : List Edit} {a b : Nat} (hab : a ≤ b)
    (hwithin : ∀ e ∈ es, a ≤ e.span.start ∧ e.span.start ≤ e.span.stop ∧ e.span.stop ≤ b)
    (hchain : es.Pairwise fun e f => e.span.stop ≤ f.span.start) : removed es ≤ b - a := by
  induction es generalizing a with
  | nil => exact Nat.zero_le _
  | cons e es ih =>
    obtain ⟨hstart, hle, hstop⟩ := hwithin e List.mem_cons_self
    obtain ⟨hnext, hchain⟩ := List.pairwise_cons.mp hchain
    have hrest := ih hstop (fun f hf =>
      ⟨hnext f hf, (hwithin f (List.mem_cons_of_mem e hf)).2⟩) hchain
    rw [removed]
    omega

theorem position_le {es fs : List Edit} {a b : Nat} (hab : a ≤ b) (hes : removed es ≤ a)
    (hfs : removed fs ≤ b - a) : position es a ≤ position (es ++ fs) b := by
  rw [position, position, removed_append, inserted_append]
  omega

theorem removed_insertions (plan : EditPlan) (offset : Nat) :
    removed (plan.insertions offset) = 0 := by
  have hall : ∀ e ∈ plan.insertions offset, e.span = ⟨offset, offset⟩ := fun e he => by
    simpa using (List.mem_filter.mp he).2
  generalize plan.insertions offset = es at hall
  induction es with
  | nil => rfl
  | cons e es ih =>
    obtain ⟨he, hes⟩ := List.forall_mem_cons.mp hall
    rw [removed, ih hes, he, Nat.sub_self]

section
variable {text : String} {plan : EditPlan} (h : plan.Spread text.toList)
include h

/-- A part of the order, all between two places. -/
theorem Spread.removed_le {es : List Edit} (hsub : es.Sublist (ordered plan)) {a b : Nat}
    (hab : a ≤ b) (hwithin : ∀ e ∈ es, a ≤ e.span.start ∧ e.span.stop ≤ b) :
    removed es ≤ b - a :=
  EditPlan.removed_le hab
    (fun e he => ⟨(hwithin e he).1, (h.ordered_fits e (hsub.subset he)).1, (hwithin e he).2⟩)
    (h.chain.sublist hsub)

/-- What stops at an offset or before it takes out no more than there is before it. -/
theorem Spread.removed_stop_le (offset : Nat) :
    removed ((ordered plan).filter (·.span.stop ≤ offset)) ≤ offset :=
  h.removed_le List.filter_sublist (Nat.zero_le _) fun e he =>
    ⟨Nat.zero_le _, by simpa using (List.mem_filter.mp he).2⟩

/-- The range that is written reads as the edit says. -/
theorem Spread.slice_written {e : Edit} (he : e ∈ plan) :
    slice (plan.apply text) (plan.written e) = e.text := by
  obtain ⟨es, fs, hall, hnew⟩ :=
    List.eq_append_cons_of_mem ((ordered_perm plan).mem_iff.mpr he)
  have hchain := h.chain
  rw [hall, List.pairwise_append] at hchain
  obtain ⟨-, hlast, hfirst⟩ := hchain
  obtain ⟨as, bs, hcut, hsize⟩ := (h.fits e he).2.1
  have hreplaced := h.replaced
  rw [hcut, hall] at hreplaced
  obtain ⟨as', bs', hout, hbefore, hbehind⟩ := hreplaced.split
    (fun a ha => by
      rw [Nat.zero_add, hsize]
      exact hfirst a ha e List.mem_cons_self)
    (fun a ha => by
      rw [Nat.zero_add, hsize]
      rcases List.mem_cons.mp ha with rfl | ha
      · exact Nat.le_refl _
      · exact Nat.le_trans (h.fits e he).1 ((List.pairwise_cons.mp hlast).1 a ha))
  have hplace : position es e.span.start = size as' := by
    have hsizes := hbefore.size_eq
    rw [position]
    omega
  rw [written_eq hall hnew, hplace]
  cases hbehind with
  | @edit _ kept old rest out _ _ start stop more =>
    obtain rfl : kept = [] := eq_nil_of_size (by omega)
    rw [slice_eq hout rfl rfl, List.nil_append, String.ofList_toList]

/-! ### Around a place that no edit crosses -/

variable {offset : Nat} (hcross : plan.Uncrossed offset)
include hcross

/-- What begins before the place, what is inserted there, and what ends behind it. -/
theorem Spread.ordered_split : ordered plan =
    (ordered plan).filter (·.span.start < offset) ++
      (plan.insertions offset ++ (ordered plan).filter (offset < ·.span.stop)) := by
  have hle := h.ordered_fits
  have hside : ∀ e ∈ ordered plan, e.span.stop ≤ offset ∨ offset ≤ e.span.start := fun e he =>
    hcross e ((ordered_perm plan).mem_iff.mp he)
  have hbefore : (ordered plan).Pairwise fun a b =>
      decide (b.span.start < offset) = true → decide (a.span.start < offset) = true := by
    refine (ordered_pairwise plan).imp fun {a b} hab hb => ?_
    rw [precedes_iff] at hab
    simp only [decide_eq_true_eq] at hb ⊢
    omega
  have hbehind : ((ordered plan).filter fun e => !decide (e.span.start < offset)).Pairwise
      fun a b => decide (b.span.stop ≤ offset) = true → decide (a.span.stop ≤ offset) = true := by
    refine ((ordered_pairwise plan).sublist List.filter_sublist).imp_of_mem
      fun {a b} ha hb hab hstop => ?_
    obtain ⟨hmema, ha⟩ := List.mem_filter.mp ha
    obtain ⟨hmemb, hb⟩ := List.mem_filter.mp hb
    have hleb := (hle b hmemb).1
    rw [precedes_iff] at hab
    simp only [Bool.not_eq_true', decide_eq_false_iff_not, decide_eq_true_eq] at ha hb hstop ⊢
    omega
  have hat : ((ordered plan).filter fun e => !decide (e.span.start < offset)).filter
      (fun e => decide (e.span.stop ≤ offset)) = plan.insertions offset := by
    rw [List.filter_filter, insertions, ← ordered_stable]
    refine List.filter_congr fun e he => ?_
    have hle := (hle e he).1
    rw [Bool.eq_iff_iff]
    simp only [Bool.and_eq_true, Bool.not_eq_true', decide_eq_false_iff_not, decide_eq_true_eq]
    constructor
    · intro hpoint
      exact congrArg₂ Span.mk (show e.span.start = offset by omega)
        (show e.span.stop = offset by omega)
    · intro hspan
      rw [hspan]
      exact ⟨Nat.le_refl _, Nat.lt_irrefl _⟩
  have hafter : ((ordered plan).filter fun e => !decide (e.span.start < offset)).filter
      (fun e => !decide (e.span.stop ≤ offset)) =
        (ordered plan).filter (offset < ·.span.stop) := by
    rw [List.filter_filter]
    refine List.filter_congr fun e he => ?_
    have hside := hside e he
    rw [Bool.eq_iff_iff]
    simp only [Bool.and_eq_true, Bool.not_eq_true', decide_eq_false_iff_not, decide_eq_true_eq]
    omega
  exact (filter_append_filter_not hbefore).trans (congrArg _
    ((filter_append_filter_not hbehind).trans (congrArg₂ _ hat hafter)))

/-- What ends at the place or before it, is what begins before it and what is inserted there. -/
theorem Spread.filter_stop : (ordered plan).filter (·.span.stop ≤ offset) =
    (ordered plan).filter (·.span.start < offset) ++ plan.insertions offset := by
  conv_lhs => rw [h.ordered_split hcross]
  rw [← List.append_assoc]
  refine filter_append_eq (fun e he => ?_) fun e he => ?_
  · simp only [decide_eq_true_eq]
    rcases List.mem_append.mp he with he | he
    · obtain ⟨hmem, hstart⟩ := List.mem_filter.mp he
      have hside := hcross e ((ordered_perm plan).mem_iff.mp hmem)
      simp only [decide_eq_true_eq] at hstart
      omega
    · have hspan : e.span = ⟨offset, offset⟩ := by simpa using (List.mem_filter.mp he).2
      rw [hspan]
  · have hstop := (List.mem_filter.mp he).2
    simpa using hstop

/-- The insertions at the place lie between the images of what is before it and behind it. -/
theorem Spread.front_eq_back : plan.front offset =
    plan.back offset + inserted (plan.insertions offset) := by
  rw [front_eq (h.filter_stop hcross), back_eq rfl, removed_append, inserted_append,
    removed_insertions]
  omega

/-- Each insertion at the place is written behind those that were planned before it. -/
theorem Spread.written_insertion {e : Edit} {xs ys : List Edit}
    (hat : plan.insertions offset = xs ++ e :: ys) (hnew : e ∉ xs) : plan.written e =
      ⟨plan.back offset + inserted xs,
        plan.back offset + inserted xs + size e.text.toList⟩ := by
  have hspan : ∀ a ∈ xs ++ e :: ys, a.span = ⟨offset, offset⟩ := fun a ha => by
    rw [← hat] at ha
    simpa using (List.mem_filter.mp ha).2
  have hstart : e.span.start = offset := by rw [hspan e (by simp)]
  have hsplit := h.ordered_split hcross
  rw [hat] at hsplit
  have hzero : removed xs = 0 := by
    have hnone := removed_insertions plan offset
    rw [hat, removed_append] at hnone
    omega
  have hall : ordered plan = ((ordered plan).filter (·.span.start < offset) ++ xs) ++
      e :: (ys ++ (ordered plan).filter (offset < ·.span.stop)) := by
    conv_lhs => rw [hsplit]
    simp
  have hfirst : e ∉ (ordered plan).filter (·.span.start < offset) ++ xs := by
    intro hmem
    rcases List.mem_append.mp hmem with hmem | hmem
    · have hlt := (List.mem_filter.mp hmem).2
      simp only [decide_eq_true_eq] at hlt
      omega
    · exact hnew hmem
  rw [written_eq hall hfirst, position, back_eq rfl, removed_append, inserted_append, hstart, hzero]
  simp only [Span.mk.injEq]
  omega

omit hcross in
/-- The edits that are read before an edit take out no more than there is before it. -/
theorem Spread.removed_before {e : Edit} {es fs : List Edit} (hall : ordered plan = es ++ e :: fs) :
    removed es ≤ e.span.start := by
  have hsub : es.Sublist (ordered plan) := hall ▸ List.sublist_append_left es (e :: fs)
  have hchain := h.chain
  rw [hall, List.pairwise_append] at hchain
  exact h.removed_le hsub (Nat.zero_le _) fun a ha =>
    ⟨Nat.zero_le _, hchain.2.2 a ha e List.mem_cons_self⟩

/-- What begins before the place is written before it. -/
theorem Spread.written_before {e : Edit} (he : e ∈ plan) (hbefore : e.span.start < offset) :
    (plan.written e).stop ≤ plan.back offset := by
  have hmem : e ∈ (ordered plan).filter (·.span.start < offset) :=
    List.mem_filter.mpr ⟨(ordered_perm plan).mem_iff.mpr he, by simpa using hbefore⟩
  obtain ⟨es, fs, hfilter, hnew⟩ := List.eq_append_cons_of_mem hmem
  have hsplit := h.ordered_split hcross
  rw [hfilter, List.append_assoc] at hsplit
  have hstop : e.span.stop ≤ offset := by
    have hside := hcross e he
    omega
  have hsub : fs.Sublist (ordered plan) := by
    have hcons : (e :: fs).Sublist ((ordered plan).filter (·.span.start < offset)) :=
      hfilter ▸ List.sublist_append_right es (e :: fs)
    exact ((List.sublist_cons_self e fs).trans hcons).trans List.filter_sublist
  have hchain := h.chain.sublist
    (List.filter_sublist (p := fun a => decide (a.span.start < offset)))
  rw [hfilter, List.pairwise_append, List.pairwise_cons] at hchain
  have hfs : removed fs ≤ offset - e.span.stop := h.removed_le hsub hstop fun a ha => by
    have hmem : a ∈ (ordered plan).filter (·.span.start < offset) := hfilter ▸ by simp [ha]
    obtain ⟨hmem, hlt⟩ := List.mem_filter.mp hmem
    have hside := hcross a ((ordered_perm plan).mem_iff.mp hmem)
    simp only [decide_eq_true_eq] at hlt
    exact ⟨hchain.2.1.1 a ha, by omega⟩
  have hes := h.removed_before hsplit
  have hle := (h.fits e he).1
  rw [written_eq hsplit hnew, back_eq hfilter, position, removed_append, inserted_append, removed,
    inserted]
  dsimp only
  omega

/-- What ends behind the place is written behind it. -/
theorem Spread.written_behind {e : Edit} (he : e ∈ plan) (hbehind : offset < e.span.stop) :
    plan.front offset ≤ (plan.written e).start := by
  have hmem : e ∈ (ordered plan).filter (offset < ·.span.stop) :=
    List.mem_filter.mpr ⟨(ordered_perm plan).mem_iff.mpr he, by simpa using hbehind⟩
  obtain ⟨es, fs, hfilter, hnew⟩ := List.eq_append_cons_of_mem hmem
  have hall : ordered plan = ((ordered plan).filter (·.span.stop ≤ offset) ++ es) ++ e :: fs := by
    conv_lhs => rw [h.ordered_split hcross, hfilter]
    rw [h.filter_stop hcross]
    simp
  have hfirst : e ∉ (ordered plan).filter (·.span.stop ≤ offset) ++ es := by
    intro hmem
    rcases List.mem_append.mp hmem with hmem | hmem
    · have hstop := (List.mem_filter.mp hmem).2
      simp only [decide_eq_true_eq] at hstop
      omega
    · exact hnew hmem
  have hstart : ∀ a ∈ es ++ e :: fs, offset ≤ a.span.start := fun a ha => by
    rw [← hfilter] at ha
    obtain ⟨hmem, hstop⟩ := List.mem_filter.mp ha
    have hside := hcross a ((ordered_perm plan).mem_iff.mp hmem)
    simp only [decide_eq_true_eq] at hstop
    omega
  have hchain := h.chain
  rw [hall, List.pairwise_append] at hchain
  have hsub : es.Sublist (ordered plan) := by
    have hleft : es.Sublist (es ++ e :: fs) := List.sublist_append_left es (e :: fs)
    rw [← hfilter] at hleft
    exact hleft.trans List.filter_sublist
  have hes : removed es ≤ e.span.start - offset :=
    h.removed_le hsub (hstart e (by simp)) fun a ha => ⟨hstart a (by simp [ha]),
      hchain.2.2 a (List.mem_append_right _ ha) e List.mem_cons_self⟩
  rw [written_eq hall hfirst, front_eq rfl]
  exact position_le (hstart e (by simp)) (h.removed_stop_le offset) hes

omit hcross in
/-- The images of places are in order. -/
theorem Spread.front_le_back {a b : Nat} (hab : a < b) (ha : plan.Uncrossed a)
    (hb : plan.Uncrossed b) : plan.front a ≤ plan.back b := by
  have hfilter : (ordered plan).filter (·.span.start < b) =
      (ordered plan).filter (·.span.stop ≤ a) ++
        ((ordered plan).filter (a < ·.span.stop)).filter (·.span.start < b) := by
    conv_lhs => rw [h.ordered_stop a, List.filter_append]
    congr 1
    refine List.filter_eq_self.mpr fun e he => ?_
    obtain ⟨hmem, hstop⟩ := List.mem_filter.mp he
    have hle := (h.ordered_fits e hmem).1
    simp only [decide_eq_true_eq] at hstop ⊢
    omega
  rw [front_eq rfl, back_eq hfilter]
  refine position_le (Nat.le_of_lt hab) (h.removed_stop_le a)
    (h.removed_le (List.filter_sublist.trans List.filter_sublist) (Nat.le_of_lt hab) fun e he => ?_)
  obtain ⟨hmem, hstart⟩ := List.mem_filter.mp he
  obtain ⟨hmem, hstop⟩ := List.mem_filter.mp hmem
  have hsidea := ha e ((ordered_perm plan).mem_iff.mp hmem)
  have hsideb := hb e ((ordered_perm plan).mem_iff.mp hmem)
  simp only [decide_eq_true_eq] at hstop hstart
  omega

omit hcross in
theorem Spread.back_le_front {a b : Nat} (hab : a ≤ b) (ha : plan.Uncrossed a)
    (hb : plan.Uncrossed b) : plan.back a ≤ plan.front b := by
  have hfirst := h.front_eq_back ha
  have hlast := h.front_eq_back hb
  rcases Nat.lt_or_eq_of_le hab with hlt | rfl
  · have hmid := h.front_le_back hlt ha hb
    omega
  · omega

/-! ### Places that no edit touches -/

omit hcross

theorem Spread.filter_congr_of_le {p q : Edit → Bool}
    (hpq : ∀ e ∈ plan, e.span.start ≤ e.span.stop → (p e ↔ q e)) : plan.filter p = plan.filter q :=
  List.filter_congr fun e he => Bool.eq_iff_iff.mpr (hpq e he (h.fits e he).1)

theorem Spread.removed_front_le (offset : Nat) :
    removed (plan.filter (·.span.stop ≤ offset)) ≤ offset := by
  rw [(removed_inserted_perm ((ordered_perm plan).filter (·.span.stop ≤ offset)).symm).1]
  exact h.removed_stop_le offset

variable (hfree : plan.Untouched offset)
include hfree

/-- A place that no edit touches has one place in the new text. -/
theorem Spread.front_eq_back_of_untouched : plan.front offset = plan.back offset := by
  have hfilter : plan.filter (·.span.stop ≤ offset) = plan.filter (·.span.start < offset) := by
    refine h.filter_congr_of_le fun e he hle => ?_
    have hside := hfree e he
    simp only [decide_eq_true_eq]
    omega
  rw [front, back, hfilter]

theorem Spread.back_succ : plan.back (offset + 1) = plan.front offset + 1 := by
  have hfilter : plan.filter (·.span.start < offset + 1) = plan.filter (·.span.stop ≤ offset) := by
    refine h.filter_congr_of_le fun e he hle => ?_
    have hside := hfree e he
    simp only [decide_eq_true_eq]
    omega
  have hremoved := h.removed_front_le offset
  rw [front, back, hfilter]
  omega

omit hfree in
theorem Spread.front_succ (hfree : plan.Untouched (offset + 1)) :
    plan.front (offset + 1) = plan.front offset + 1 := by
  have hfilter : plan.filter (·.span.stop ≤ offset + 1) = plan.filter (·.span.stop ≤ offset) := by
    refine h.filter_congr_of_le fun e he hle => ?_
    have hside := hfree e he
    simp only [decide_eq_true_eq]
    omega
  have hremoved := h.removed_front_le offset
  rw [front, front, hfilter]
  omega

omit hfree in
/-- The new places of places that no edit touches are in their order. -/
theorem Spread.front_mono {a b : Nat} (ha : plan.Untouched a) (hb : plan.Untouched b)
    (hab : a ≤ b) : plan.front a ≤ plan.front b := by
  rw [h.front_eq_back_of_untouched ha]
  exact h.back_le_front hab ha.uncrossed hb.uncrossed

end
end TokenLint.EditPlan
