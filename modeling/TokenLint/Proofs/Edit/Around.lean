import TokenLint.Proofs.Edit.Image

/-!
# Edits before a place and within a range

Where no edit crosses an offset, the edits before it make the new text before its image. Where no
edit crosses the ends of a range, the edits within it make the text of its image.
-/
namespace TokenLint

open Text

namespace Text

/-- Of a range that reads as a text, the place is known. -/
theorem exists_cut_of_slice {text : String} {span : Span} {part : List Char}
    (h : slice text span = String.ofList part) (hne : part ≠ []) :
    ∃ front back, text.toList = front ++ (part ++ back) ∧ size front = span.start ∧
      size front + size part = span.stop := by
  have hpart : (slice? text.toList span.start span.stop).getD [] = part := by
    exact String.ofList_injective h
  cases hslice : slice? text.toList span.start span.stop with
  | none =>
    rw [hslice] at hpart
    exact absurd hpart.symm hne
  | some found =>
    rw [hslice, Option.getD_some] at hpart
    subst hpart
    unfold slice? at hslice
    split at hslice
    · rename_i hle
      obtain ⟨rest, hdrop, htake⟩ := Option.bind_eq_some_iff.mp hslice
      obtain ⟨front, hfront, hsize⟩ := drop?_eq_some.mp hdrop
      obtain ⟨back, rfl, hstop⟩ := take?_eq_some.mp htake
      exact ⟨front, back, hfront, hsize, by omega⟩
    · cases hslice

theorem eq_singleton_of_size {cs : List Char} (h : size cs = 1) :
    ∃ c, cs = [c] ∧ c.utf8Size = 1 := by
  cases cs with
  | nil => cases h
  | cons c cs =>
    have hc := c.utf8Size_pos
    rw [size_cons] at h
    obtain rfl : cs = [] := eq_nil_of_size (by omega)
    exact ⟨c, rfl, by simpa using h⟩

end Text

namespace EditPlan

/-- Behind the last edit a text stays. -/
theorem Replaced.append {pos : Nat} {as bs out : List Char} {es : List Edit}
    (h : Replaced pos (as ++ bs) es out) (hes : ∀ e ∈ es, e.span.stop ≤ pos + size as) :
    ∃ as', out = as' ++ bs ∧ Replaced pos as es as' := by
  rw [← List.append_nil es] at h
  obtain ⟨as', bs', rfl, has, hbs⟩ := h.split hes (by simp)
  cases hbs
  exact ⟨as', rfl, has⟩

theorem Replaced.eq_of_nil {pos : Nat} {old out : List Char} {e : Edit}
    (h : Replaced pos old [e] out) (hnil : old = []) : out = e.text.toList := by
  cases h with
  | @edit _ kept cut rest out _ _ start stop more =>
    cases more
    obtain ⟨rfl, hrest⟩ := List.append_eq_nil_iff.mp hnil
    obtain ⟨rfl, rfl⟩ := List.append_eq_nil_iff.mp hrest
    rw [List.nil_append, List.append_nil]

/-- Where the last edit stops at the end, the new text ends as the edit says. -/
theorem Replaced.concat {pos : Nat} {old out : List Char} {es : List Edit} {e : Edit}
    (h : Replaced pos old (es ++ [e]) out) (hes : ∀ a ∈ es, a.span.stop ≤ pos + size old)
    (hstart : e.span.start = pos + size old) : ∃ front, out = front ++ e.text.toList := by
  rw [← List.append_nil old] at h
  obtain ⟨front, last, rfl, -, hlast⟩ := h.split hes (by simp [hstart])
  exact ⟨front, by rw [hlast.eq_of_nil rfl]⟩

variable {text : String} {plan : EditPlan}

/-- What the edits before an offset make of the text before it. -/
theorem Spread.slice_front (h : plan.Spread text.toList) {offset : Nat}
    (hoffset : IsBoundary text.toList offset)
    (hcross : ∀ e ∈ plan, e.span.stop ≤ offset ∨ offset ≤ e.span.start) :
    ∃ part new, slice text ⟨0, offset⟩ = String.ofList part ∧ size part = offset ∧
      slice (plan.apply text) ⟨0, plan.front offset⟩ = String.ofList new ∧
      Replaced 0 part ((ordered plan).filter (·.span.stop ≤ offset)) new := by
  obtain ⟨part, rest, hcut, hsize⟩ := hoffset
  have hreplaced := h.replaced
  rw [h.ordered_stop offset, hcut] at hreplaced
  obtain ⟨new, back, hout, hnew, -⟩ := hreplaced.split
    (fun e he => by
      rw [Nat.zero_add, hsize]
      simpa using (List.mem_filter.mp he).2)
    (fun e he => by
      obtain ⟨hmem, hbehind⟩ := List.mem_filter.mp he
      have hside := hcross e ((ordered_perm plan).mem_iff.mp hmem)
      simp only [decide_eq_true_eq] at hbehind
      omega)
  have hfront : plan.front offset = size new := by
    have hnewsize := hnew.size_eq
    rw [front_eq rfl]
    omega
  have hold : text.toList = [] ++ (part ++ rest) := hcut
  have hfirst : (plan.apply text).toList = [] ++ (new ++ back) := hout
  refine ⟨part, new, slice_eq hold rfl ?_, hsize, slice_eq hfirst rfl ?_, hnew⟩
  · simpa using hsize
  · simp [hfront]

/-- Whether an edit reaches into a range. -/
def reaches (span : Span) (e : Edit) : Bool :=
  decide (span.start < e.span.stop) && decide (e.span.start < span.stop)

theorem reaches_iff {span : Span} {e : Edit} :
    reaches span e ↔ span.start < e.span.stop ∧ e.span.start < span.stop := by
  rw [reaches, Bool.and_eq_true, decide_eq_true_eq, decide_eq_true_eq]

/-- What the edits within a range make of it. -/
theorem Spread.slice_image_of_reaches (h : plan.Spread text.toList) {span : Span}
    (hspan : IsRange text.toList span) (hne : span.start < span.stop)
    (hwithin : ∀ e ∈ plan, reaches span e → e.span.Within span) :
    ∃ part new, slice text span = String.ofList part ∧ span.start + size part = span.stop ∧
      slice (plan.apply text) (plan.image span) = String.ofList new ∧
      Replaced span.start part ((ordered plan).filter (reaches span)) new := by
  have hbehind : ((ordered plan).filter (span.start < ·.span.stop)).Pairwise fun a b =>
      decide (b.span.start < span.stop) = true → decide (a.span.start < span.stop) = true := by
    refine (h.chain.sublist List.filter_sublist).imp_of_mem fun {a b} ha _ hab hbehind => ?_
    have hle := (h.ordered_fits a (List.mem_filter.mp ha).1).1
    simp only [decide_eq_true_eq] at hbehind ⊢
    omega
  have hreaches : ((ordered plan).filter (span.start < ·.span.stop)).filter
      (·.span.start < span.stop) = (ordered plan).filter (reaches span) := by
    rw [List.filter_filter]
    refine List.filter_congr fun e _ => ?_
    rw [reaches, Bool.and_comm]
  refine h.slice_image hspan hne _
    ((h.ordered_stop span.start).trans
      (congrArg _ ((filter_append_filter_not hbehind).trans (congrArg (· ++ _) hreaches))))
    (fun e he => ?_) (fun e he => ?_) fun e he => ?_
  · simpa using (List.mem_filter.mp he).2
  · obtain ⟨hmem, hreach⟩ := List.mem_filter.mp he
    obtain ⟨hstart, hstop⟩ := hwithin e ((ordered_perm plan).mem_iff.mp hmem) hreach
    obtain ⟨hfirst, hlast⟩ := reaches_iff.mp hreach
    exact ⟨hstart, hfirst, hlast, hstop⟩
  · simpa using (List.mem_filter.mp he).2

/-- Where no edit reaches into a range its image is no longer. -/
theorem Spread.image_size_le (h : plan.Spread text.toList) {span : Span}
    (hspan : IsRange text.toList span) (hnone : ∀ e ∈ plan, ¬reaches span e) :
    (plan.image span).stop - (plan.image span).start ≤ span.stop - span.start := by
  rcases Nat.lt_or_ge span.start span.stop with hne | hempty
  · obtain ⟨part, new, hpart, hsize, hnew, hreplaced⟩ :=
      h.slice_image_of_reaches hspan hne fun e he hreach => absurd hreach (hnone e he)
    rw [List.filter_eq_nil_iff.mpr fun e he => hnone e ((ordered_perm plan).mem_iff.mp he)]
      at hreplaced
    cases hreplaced
    have hlong : part ≠ [] := by
      rintro rfl
      rw [size_nil] at hsize
      omega
    obtain ⟨front, back, -, hstart, hstop⟩ := exists_cut_of_slice hnew hlong
    omega
  · obtain hpoint : span.start = span.stop := Nat.le_antisymm hspan.1 hempty
    have hat := filter_at plan span.stop fun e he => by
      have hreach := hnone e he
      rw [reaches_iff] at hreach
      exact ⟨(h.fits e he).1, by omega⟩
    rw [image, front, back, hpoint]
    dsimp only
    omega

end EditPlan
end TokenLint
