import Mathlib.Data.List.Sort
import TokenLint.Proofs.Edit.Spread
import TokenLint.Proofs.Source.Shift

/-!
# Ranges of an edited text

The edits of a spread plan are all applied. A range that is apart from them has an image in the
new text that reads the same, and the image of a range that is edited reads as the edit says.
-/
namespace TokenLint.EditPlan

open Text

/-- How many bytes some edits take out. -/
def removed : List Edit → Nat
  | [] => 0
  | e :: es => e.span.stop - e.span.start + removed es

/-- How many bytes some edits put in. -/
def inserted : List Edit → Nat
  | [] => 0
  | e :: es => size e.text.toList + inserted es

/-- Where a range that begins at an offset begins in the new text. -/
def front (plan : EditPlan) (offset : Nat) : Nat :=
  offset - removed (plan.filter (·.span.stop ≤ offset)) +
    inserted (plan.filter (·.span.stop ≤ offset))

/-- Where a range that stops at an offset stops in the new text. -/
def back (plan : EditPlan) (offset : Nat) : Nat :=
  offset - removed (plan.filter (·.span.start < offset)) +
    inserted (plan.filter (·.span.start < offset))

def image (plan : EditPlan) (span : Span) : Span := ⟨plan.front span.start, plan.back span.stop⟩

/-- Whether an edit reaches over the whole of a range that is not empty. -/
def covers (plan : EditPlan) (span : Span) : Bool :=
  span.start < span.stop && plan.any fun e => e.span.start ≤ span.start && span.stop ≤ e.span.stop

theorem removed_append (es fs : List Edit) : removed (es ++ fs) = removed es + removed fs := by
  induction es with
  | nil => exact (Nat.zero_add _).symm
  | cons e es ih => rw [List.cons_append, removed, removed, ih, Nat.add_assoc]

theorem inserted_append (es fs : List Edit) : inserted (es ++ fs) = inserted es + inserted fs := by
  induction es with
  | nil => exact (Nat.zero_add _).symm
  | cons e es ih => rw [List.cons_append, inserted, inserted, ih, Nat.add_assoc]

/-- The order of the edits does not matter to how the text shrinks and grows. -/
theorem removed_inserted_perm {es fs : List Edit} (h : es.Perm fs) :
    removed es = removed fs ∧ inserted es = inserted fs := by
  induction h with
  | nil => exact ⟨rfl, rfl⟩
  | cons e _ ih => simp only [removed, inserted, ih, and_self]
  | swap e d es =>
    simp only [removed, inserted]
    omega
  | trans _ _ ih ih' => exact ⟨ih.1.trans ih'.1, ih.2.trans ih'.2⟩

/-! ### A replacement in parts -/

theorem Replaced.size_eq {pos : Nat} {old out : List Char} {es : List Edit}
    (h : Replaced pos old es out) :
    removed es ≤ size old ∧ size out + removed es = size old + inserted es := by
  induction h with
  | done pos rest => simp [removed, inserted]
  | @edit pos kept old rest out e es start stop more ih =>
    have hsize : e.span.stop - e.span.start = size old := by omega
    simp only [removed, inserted, size_append, hsize] at ih ⊢
    omega

/-- Where no edit crosses an offset, the edits before and behind it are applied apart. -/
theorem Replaced.split {pos : Nat} {as bs out : List Char} {es fs : List Edit}
    (h : Replaced pos (as ++ bs) (es ++ fs) out) (hes : ∀ e ∈ es, e.span.stop ≤ pos + size as)
    (hfs : ∀ e ∈ fs, pos + size as ≤ e.span.start) :
    ∃ as' bs', out = as' ++ bs' ∧ Replaced pos as es as' ∧
      Replaced (pos + size as) bs fs bs' := by
  -- The edits before the offset use up the first part; the next edit begins in the second one.
  induction es generalizing pos as out with
  | nil =>
    cases fs with
    | nil =>
      generalize hold : as ++ bs = old at h
      cases h
      exact ⟨as, bs, hold.symm, .done pos as, .done _ bs⟩
    | cons f fs =>
      have hfirst := hfs f List.mem_cons_self
      generalize hold : as ++ bs = old at h
      cases h with
      | @edit _ kept old rest out _ _ start stop more =>
        obtain ⟨mid, rfl, rfl⟩ := exists_mid hold (by omega)
        refine ⟨as, mid ++ f.text.toList ++ out, by simp, .done pos as, ?_⟩
        exact .edit (by rw [size_append] at start; omega) stop more
  | cons e es ih =>
    have hfirst := hes e List.mem_cons_self
    generalize hold : as ++ bs = whole at h
    cases h with
    | @edit _ kept old rest out _ _ start stop more =>
      rw [← List.append_assoc] at hold
      obtain ⟨mid, rfl, rfl⟩ := exists_mid hold.symm (by rw [size_append]; omega)
      have hpos : pos + size (kept ++ old ++ mid) = e.span.stop + size mid := by
        rw [size_append, size_append]
        omega
      rw [hpos] at hes hfs ⊢
      obtain ⟨as', bs', rfl, hfront, hback⟩ :=
        ih more (fun a ha => hes a (List.mem_cons_of_mem e ha)) hfs
      refine ⟨kept ++ e.text.toList ++ as', bs', by simp, ?_, hback⟩
      rw [List.append_assoc kept old mid]
      exact .edit start stop hfront

theorem filter_append_eq {α : Type} {p : α → Bool} {as bs : List α} (has : ∀ a ∈ as, p a = true)
    (hbs : ∀ b ∈ bs, ¬p b = true) : (as ++ bs).filter p = as := by
  rw [List.filter_append, List.filter_eq_self.mpr has, List.filter_eq_nil_iff.mpr hbs,
    List.append_nil]

/-- A list is its elements that come first and the others, if the first come before the others. -/
theorem filter_append_filter_not {α : Type} {p : α → Bool} {as : List α}
    (h : as.Pairwise fun a b => p b = true → p a = true) :
    as = as.filter p ++ as.filter (!p ·) := by
  induction as with
  | nil => rfl
  | cons a as ih =>
    obtain ⟨ha, has⟩ := List.pairwise_cons.mp h
    cases hp : p a with
    | true => simpa [hp] using ih has
    | false =>
      have hnone : ∀ b ∈ as, ¬p b = true := fun b hb hpb => by
        rw [ha b hb hpb] at hp
        cases hp
      have hall : ∀ b ∈ as, (!p b) = true := fun b hb => by simpa using hnone b hb
      simp [hp, List.filter_eq_nil_iff.mpr hnone, List.filter_eq_self.mpr hall]

/-! ### All edits of a spread plan -/

section
variable {text : String} {plan : EditPlan}

/-- Where no two edits have one range, any sort by ranges puts them in order. -/
theorem ordered_eq_insertionSort (h : ∀ a ∈ plan, ∀ b ∈ plan, a.span = b.span → a = b) :
    ordered plan = plan.insertionSort fun a b => a.precedes b := by
  have htotal : Std.Total fun a b : Edit => a.precedes b = true :=
    ⟨fun a b => by simpa using precedes_total a b⟩
  have htrans : IsTrans Edit fun a b => a.precedes b = true := ⟨precedes_trans⟩
  have hperm := List.perm_insertionSort (fun a b : Edit => a.precedes b) plan
  refine List.Perm.eq_of_pairwise (fun a b ha hb hab hba => ?_) (ordered_pairwise plan)
    (List.pairwise_insertionSort _ plan) ((ordered_perm plan).trans hperm.symm)
  refine h a ((ordered_perm plan).mem_iff.mp ha) b (hperm.mem_iff.mp hb) ?_
  rw [precedes_iff] at hab hba
  obtain ⟨hstart, hstop⟩ : a.span.start = b.span.start ∧ a.span.stop = b.span.stop := by omega
  exact congrArg₂ Span.mk hstart hstop

theorem apply_eq_insertionSort
    (h : ∀ a ∈ plan, ∀ b ∈ plan, a.span = b.span → a = b) (text : String) :
    plan.apply text =
      String.ofList (splice text.toList 0 (plan.insertionSort fun a b => a.precedes b)) := by
  rw [apply, ordered_eq_insertionSort h]

theorem acceptedFrom_eq {cs : List Char} {es : List Edit} {limit : Nat}
    (hfits : ∀ e ∈ es, IsRange cs e.span) (hlimit : ∀ e ∈ es, limit ≤ e.span.start)
    (hchain : es.Pairwise fun a b => a.span.stop ≤ b.span.start) :
    acceptedFrom cs limit es = es := by
  induction es generalizing limit with
  | nil => rfl
  | cons e es ih =>
    obtain ⟨hfit, hfits⟩ := List.forall_mem_cons.mp hfits
    obtain ⟨hnext, hchain⟩ := List.pairwise_cons.mp hchain
    rw [acceptedFrom, if_pos ⟨hlimit e List.mem_cons_self, hfit⟩, ih hfits hnext hchain]

theorem Spread.ordered_fits (h : plan.Spread text.toList) :
    ∀ e ∈ ordered plan, IsRange text.toList e.span :=
  fun e he => h.fits e ((ordered_perm plan).mem_iff.mp he)

theorem Spread.chain (h : plan.Spread text.toList) :
    (ordered plan).Pairwise fun a b => a.span.stop ≤ b.span.start := by
  have hperm := ordered_perm plan
  have hapart : (ordered plan).Pairwise fun a b => a.span.Apart b.span :=
    (hperm.pairwise_iff fun h => h.symm).mpr h.apart
  refine ((ordered_pairwise plan).and hapart).imp_of_mem fun ha hb hab => ?_
  have hale := (h.fits _ (hperm.mem_iff.mp ha)).1
  have hble := (h.fits _ (hperm.mem_iff.mp hb)).1
  have horder := precedes_iff.mp hab.1
  have hapart := hab.2
  unfold Span.Apart at hapart
  omega

/-- The edits that stop at an offset or before it come first. -/
theorem Spread.ordered_stop (h : plan.Spread text.toList) (offset : Nat) : ordered plan =
    (ordered plan).filter (·.span.stop ≤ offset) ++
      (ordered plan).filter (offset < ·.span.stop) := by
  have hfirst : (ordered plan).Pairwise fun a b =>
      decide (b.span.stop ≤ offset) = true → decide (a.span.stop ≤ offset) = true := by
    refine h.chain.imp_of_mem fun {a b} _ hb hab hstop => ?_
    have hle := (h.ordered_fits b hb).1
    simp only [decide_eq_true_eq] at hstop ⊢
    omega
  have hrest : ((ordered plan).filter fun e => !decide (e.span.stop ≤ offset)) =
      (ordered plan).filter (offset < ·.span.stop) :=
    List.filter_congr fun e _ => by rw [Bool.eq_iff_iff]; simp
  exact (filter_append_filter_not hfirst).trans (congrArg _ hrest)

theorem Spread.replaced (h : plan.Spread text.toList) :
    Replaced 0 text.toList (ordered plan) (plan.apply text).toList := by
  have hall : plan.accepted text = ordered plan :=
    acceptedFrom_eq h.ordered_fits (fun _ _ => Nat.zero_le _) h.chain
  have happly := replaced_apply plan text
  rwa [hall] at happly

theorem front_eq {es : List Edit} {offset : Nat}
    (h : (ordered plan).filter (·.span.stop ≤ offset) = es) :
    plan.front offset = offset - removed es + inserted es := by
  have hperm := ((ordered_perm plan).filter (·.span.stop ≤ offset)).symm
  obtain ⟨hremoved, hinserted⟩ := removed_inserted_perm hperm
  rw [front, hremoved, hinserted, h]

theorem back_eq {es : List Edit} {offset : Nat}
    (h : (ordered plan).filter (·.span.start < offset) = es) :
    plan.back offset = offset - removed es + inserted es := by
  have hperm := ((ordered_perm plan).filter (·.span.start < offset)).symm
  obtain ⟨hremoved, hinserted⟩ := removed_inserted_perm hperm
  rw [back, hremoved, hinserted, h]

theorem front_of_append {es fs : List Edit} {offset : Nat} (hall : ordered plan = es ++ fs)
    (hes : ∀ e ∈ es, e.span.stop ≤ offset) (hfs : ∀ e ∈ fs, offset < e.span.stop) :
    plan.front offset = offset - removed es + inserted es := by
  refine front_eq ?_
  rw [hall]
  exact filter_append_eq (fun e he => decide_eq_true (hes e he))
    fun e he => by simpa using hfs e he

theorem back_of_append {es fs : List Edit} {offset : Nat} (hall : ordered plan = es ++ fs)
    (hes : ∀ e ∈ es, e.span.start < offset) (hfs : ∀ e ∈ fs, offset ≤ e.span.start) :
    plan.back offset = offset - removed es + inserted es := by
  refine back_eq ?_
  rw [hall]
  exact filter_append_eq (fun e he => decide_eq_true (hes e he))
    fun e he => by simpa using hfs e he

/-- Some edits stand before a range, some behind it and some within; what becomes of the range is
what those within make of it. -/
theorem Spread.slice_image (h : plan.Spread text.toList) {span : Span}
    (hspan : IsRange text.toList span) (hne : span.start < span.stop) {first last : List Edit}
    (within : List Edit)
    (hall : ordered plan = first ++ (within ++ last))
    (hfirst : ∀ e ∈ first, e.span.stop ≤ span.start)
    (hwithin : ∀ e ∈ within, span.start ≤ e.span.start ∧ span.start < e.span.stop ∧
      e.span.start < span.stop ∧ e.span.stop ≤ span.stop)
    (hlast : ∀ e ∈ last, span.stop ≤ e.span.start) :
    ∃ part new, slice text span = String.ofList part ∧ span.start + size part = span.stop ∧
      slice (plan.apply text) (plan.image span) = String.ofList new ∧
      Replaced span.start part within new := by
  obtain ⟨as, part, bs, hcut, hstart, hstop⟩ := hspan.exists_cut
  have hreplaced := h.replaced
  have hordered := h.ordered_fits
  rw [hcut, hall] at hreplaced
  rw [hall] at hordered
  -- The text is split before the range and behind it, and the edits with it.
  obtain ⟨as', rest, hout, hbefore, hreplaced⟩ := hreplaced.split
    (fun e he => by rw [Nat.zero_add, hstart]; exact hfirst e he)
    (fun e he => by
      rw [Nat.zero_add, hstart]
      rcases List.mem_append.mp he with he | he
      · exact (hwithin e he).1
      · exact Nat.le_trans (Nat.le_of_lt hne) (hlast e he))
  rw [Nat.zero_add, hstart] at hreplaced
  obtain ⟨new, bs', rfl, hnew, -⟩ := hreplaced.split
    (fun e he => by rw [← hstart, hstop]; exact (hwithin e he).2.2.2)
    (fun e he => by rw [← hstart, hstop]; exact hlast e he)
  have hfront : plan.front span.start = size as' := by
    have hsize := hbefore.size_eq
    rw [front_of_append hall hfirst fun e he => ?_]
    · omega
    · rcases List.mem_append.mp he with he | he
      · exact (hwithin e he).2.1
      · have hbehind := hlast e he
        have hle := (hordered e (by simp [he])).1
        omega
  have hback : plan.back span.stop = size as' + size new := by
    have hsize := hbefore.size_eq
    have hsize' := hnew.size_eq
    rw [← List.append_assoc] at hall
    rw [back_of_append hall (fun e he => ?_) hlast, removed_append, inserted_append]
    · omega
    · rcases List.mem_append.mp he with he | he
      · have hbefore := hfirst e he
        have hle := (hordered e (by simp [he])).1
        omega
      · exact (hwithin e he).2.2.1
  refine ⟨part, new, slice_eq hcut hstart hstop, by rw [← hstart, hstop], ?_, hnew⟩
  exact slice_eq hout hfront.symm hback.symm

/-- Where nothing is taken out, the edits that stop there and those that begin before it differ in
insertions. -/
theorem filter_at (es : List Edit) (offset : Nat)
    (h : ∀ e ∈ es, e.span.start ≤ e.span.stop ∧ (e.span.stop ≤ offset ∨ offset ≤ e.span.start)) :
    removed (es.filter (·.span.stop ≤ offset)) = removed (es.filter (·.span.start < offset)) ∧
      inserted (es.filter (·.span.start < offset)) ≤
        inserted (es.filter (·.span.stop ≤ offset)) := by
  induction es with
  | nil => exact ⟨rfl, Nat.le_refl _⟩
  | cons e es ih =>
    obtain ⟨he, hes⟩ := List.forall_mem_cons.mp h
    specialize ih hes
    rw [List.filter_cons, List.filter_cons]
    split <;> split <;> simp only [removed, inserted, decide_eq_true_eq] at * <;> omega

/-- A range that no edit touches reads the same in the new text. -/
theorem Spread.slice_image_of_apart (h : plan.Spread text.toList) {span : Span}
    (hspan : IsRange text.toList span) (hapart : ∀ e ∈ plan, e.span.Apart span) :
    slice (plan.apply text) (plan.image span) = slice text span := by
  rcases Nat.lt_or_ge span.start span.stop with hne | hempty
  · obtain ⟨part, new, hold, -, hnew, hreplaced⟩ := h.slice_image hspan hne []
      (h.ordered_stop span.start) (fun e he => by simpa using (List.mem_filter.mp he).2) (by simp)
      fun e he => by
        obtain ⟨hmem, hbehind⟩ := List.mem_filter.mp he
        have haparte := hapart e ((ordered_perm plan).mem_iff.mp hmem)
        unfold Span.Apart at haparte
        simp only [decide_eq_true_eq] at hbehind
        omega
    cases hreplaced
    rw [hold, hnew]
  · obtain hpoint : span.start = span.stop := Nat.le_antisymm hspan.1 hempty
    obtain ⟨hremoved, hinserted⟩ := filter_at plan span.stop fun e he => by
      have haparte := hapart e he
      rw [Span.Apart, hpoint] at haparte
      exact ⟨(h.fits e he).1, haparte⟩
    rw [slice_of_le hempty, slice_of_le]
    simp only [image, front, back, hpoint]
    omega

/-- The image of a range that an edit replaces reads as the edit says. -/
theorem Spread.slice_image_of_mem (h : plan.Spread text.toList) {e : Edit} (he : e ∈ plan)
    (hne : e.span.start < e.span.stop) :
    slice (plan.apply text) (plan.image e.span) = e.text := by
  obtain ⟨first, last, hall⟩ := List.append_of_mem ((ordered_perm plan).mem_iff.mpr he)
  have hchain := h.chain
  rw [hall] at hchain
  obtain ⟨-, hlast, hfirst⟩ := List.pairwise_append.mp hchain
  obtain ⟨part, new, -, hsize, hnew, hreplaced⟩ := h.slice_image (h.fits e he) hne [e]
    hall (fun a ha => hfirst a ha e List.mem_cons_self) (by simpa using hne)
    (List.pairwise_cons.mp hlast).1
  rw [hnew]
  cases hreplaced with
  | @edit _ kept old rest out _ _ start stop more =>
    cases more
    simp only [size_append] at hsize
    obtain rfl : kept = [] := eq_nil_of_size (by omega)
    obtain rfl : rest = [] := eq_nil_of_size (by omega)
    rw [List.nil_append, List.append_nil, String.ofList_toList]

/-- Of a range within one that is deleted nothing is left. -/
theorem Spread.slice_image_of_deleted (h : plan.Spread text.toList) {e : Edit} (he : e ∈ plan)
    (hempty : e.text = "") {span : Span} (hwithin : span.Within e.span)
    (hne : span.start < span.stop) : slice (plan.apply text) (plan.image span) = "" := by
  obtain ⟨first, last, hall⟩ := List.append_of_mem ((ordered_perm plan).mem_iff.mpr he)
  have hchain := h.chain
  have hle := h.ordered_fits
  rw [hall] at hchain hle
  obtain ⟨-, hlast, hfirst⟩ := List.pairwise_append.mp hchain
  obtain ⟨hstart, hstop⟩ := hwithin
  have hbefore : ∀ a ∈ first, a.span.start ≤ a.span.stop ∧ a.span.stop ≤ e.span.start :=
    fun a ha => ⟨(hle a (List.mem_append_left _ ha)).1, hfirst a ha e List.mem_cons_self⟩
  have hbehind : ∀ b ∈ last, b.span.start ≤ b.span.stop ∧ e.span.stop ≤ b.span.start :=
    fun b hb => ⟨(hle b (List.mem_append_right _ (List.mem_cons_of_mem _ hb))).1,
      (List.pairwise_cons.mp hlast).1 b hb⟩
  have hfront : plan.front span.start = span.start - removed first + inserted first := by
    refine front_of_append hall (fun a ha => ?_) (List.forall_mem_cons.mpr ⟨?_, fun b hb => ?_⟩)
    · have := hbefore a ha
      omega
    · omega
    · have := hbehind b hb
      omega
  -- the deletion begins before the range stops, so it counts at the other end
  have hback : plan.back span.stop =
      span.stop - removed (first ++ [e]) + inserted (first ++ [e]) := by
    rw [List.append_cons] at hall
    refine back_of_append hall (List.forall_mem_append.mpr ⟨fun a ha => ?_, ?_⟩) fun b hb => ?_
    · have := hbefore a ha
      omega
    · simp only [List.mem_singleton, forall_eq]
      omega
    · have := hbehind b hb
      omega
  refine slice_of_le ?_
  have hnothing : size e.text.toList = 0 := by rw [hempty]; rfl
  rw [image, hfront, hback, removed_append, inserted_append]
  simp only [removed, inserted, hnothing]
  omega

end

theorem not_covers {plan : EditPlan} {span part : Span} (hpart : part.Within span)
    (hne : span.start < span.stop → part.start < part.stop)
    (hapart : ∀ ed ∈ plan, ed.span.Apart part) : plan.covers span = false := by
  unfold EditPlan.covers
  refine Bool.and_eq_false_imp.mpr fun hspan => List.any_eq_false.mpr fun ed hed hover => ?_
  have hpos := hne (by simpa using hspan)
  have hwithin : span.Within ed.span := by simpa [Span.Within] using hover
  exact (hpart.trans hwithin).not_apart hpos (hapart ed hed)

end TokenLint.EditPlan
