import TokenLint.Proofs.Codemod.HexColor.Literal
import TokenLint.Proofs.Text.Ends

/-!
# The comment before a literal

A literal that had its edits has no known color any more. Unknown ones may be left, and then the
comment stands before it: it was put there last of all that is put at that place, or it stood there
before, where no edit of another literal reaches.
-/
namespace TokenLint.Codemod.HexColor

open Source Text EditPlan

variable {file file' : SourceFile} {n n' : Node} {inAttribute : Bool}

theorem isMarked_iff {offset : Nat} : isMarked file offset ↔ ∃ before blanks,
    (file.slice ⟨0, offset⟩).toList = before ++ markerEnd.toList ++ blanks ∧
      ∀ c ∈ blanks, isBlank c := by
  have hend : markerEnd.toList = " with semantic design tokens *".toList ++ ['/'] := by decide
  rw [isMarked, hend]
  exact endsWith_trimEnd_iff (by decide)

/-- The text that is put before a literal. -/
def prefixText (inAttribute : Bool) (unknown : List String) : String :=
  (if inAttribute then "\x7b" else "") ++ marker unknown ++ " "

theorem prefixText_ends (inAttribute : Bool) (unknown : List String) :
    ∃ before, (prefixText inAttribute unknown).toList = before ++ markerEnd.toList ++ [' '] := by
  have hspace : " ".toList = [' '] := by decide
  obtain ⟨before, hmarker⟩ : ∃ before, (marker unknown).toList = before ++ markerEnd.toList :=
    ⟨_, String.toList_append⟩
  refine ⟨(if inAttribute then "\x7b" else "").toList ++ before, ?_⟩
  rw [prefixText, String.toList_append, String.toList_append, hmarker, hspace]
  simp only [List.append_assoc]

/-- At the front of a literal its comment, and nothing else of its edits, is put. -/
theorem filter_mark (hne : n.start < n.stop) (unknown : List String) :
    (mark inAttribute n unknown).filter (·.span = ⟨n.start, n.start⟩) =
      [.insert n.start (prefixText inAttribute unknown)] := by
  have hstop : ¬(⟨n.stop, n.stop⟩ : Span) = ⟨n.start, n.start⟩ := by
    rw [Span.mk.injEq]
    omega
  unfold mark prefixText
  cases inAttribute with
  | true => simp [Edit.insert, hstop]
  | false => simp [Edit.insert]

/-- No edit reaches into a comment that stands before a literal. -/
def Spares (file : SourceFile) (n : Node) (front : EditPlan) : Prop :=
  ∀ before blanks, (file.slice ⟨0, n.start⟩).toList = before ++ markerEnd.toList ++ blanks →
    (∀ c ∈ blanks, isBlank c) → ∀ e ∈ front, e.span.stop ≤ size before

namespace Among

variable {front back plan : EditPlan} (h : Among file inAttribute n front back plan)
include h

theorem own_within {e : Edit} (he : e ∈ planLiteral file inAttribute n) : e.span.Within n.span :=
  (placed_planLiteral h.nests h.aligned).within e he

/-- No edit crosses the front of a literal. -/
theorem not_crossed {e : Edit} (he : e ∈ plan) :
    e.span.stop ≤ n.start ∨ n.start ≤ e.span.start := by
  rw [h.parts] at he
  rcases List.mem_append.mp he with he | he
  · exact .inl (h.before e he)
  · rcases List.mem_append.mp he with he | he
    · exact .inr (h.own_within he).1
    · exact .inr (Nat.le_trans h.nests.ordered (h.behind e he))

section
variable (hsize : 2 ≤ n.stop - n.start) (hunmarked : isMarked file n.start = false)
  (hunknown : unknownColors file n ≠ [])
include hsize hunmarked hunknown

/-- Of all that is put at the front of a literal its own comment is planned last. -/
theorem filter_at_start : plan.filter (·.span = ⟨n.start, n.start⟩) =
    front.filter (·.span = ⟨n.start, n.start⟩) ++
      [.insert n.start (prefixText inAttribute (unknownColors file n))] := by
  have hretouch : (retouch file n).filter (·.span = ⟨n.start, n.start⟩) = [] := by
    refine List.filter_eq_nil_iff.mpr fun e he => ?_
    rw [mem_retouch he, content_eq hsize, decide_eq_true_eq, Span.mk.injEq]
    omega
  have hremark : remark file n inAttribute = mark inAttribute n (unknownColors file n) :=
    if_neg (by simpa [hunmarked] using hunknown)
  have hback : back.filter (·.span = ⟨n.start, n.start⟩) = [] := by
    refine List.filter_eq_nil_iff.mpr fun e he hspan => ?_
    have hbehind := h.behind e he
    rw [decide_eq_true_eq] at hspan
    rw [hspan] at hbehind
    dsimp only at hbehind
    omega
  rw [h.parts, planLiteral_eq h.plain, hremark]
  simp only [List.filter_append, hretouch, hback, filter_mark (by omega : n.start < n.stop),
    List.nil_append, List.append_nil]

/-- Of the edits at the front of a literal its own is applied last. -/
theorem exists_filter_before : ∃ es, (ordered plan).filter (·.span.stop ≤ n.start) =
    es ++ [.insert n.start (prefixText inAttribute (unknownColors file n))] := by
  have hpair : ((ordered plan).filter (·.span.stop ≤ n.start)).Pairwise fun a b =>
      (!decide (b.span = ⟨n.start, n.start⟩)) = true →
        (!decide (a.span = ⟨n.start, n.start⟩)) = true := by
    refine ((ordered_pairwise plan).sublist List.filter_sublist).imp_of_mem
      fun {a b} ha hb hab hlast => ?_
    -- behind an edit that puts something at the front nothing else is left to come
    obtain ⟨hmem, hstop⟩ := List.mem_filter.mp hb
    have hle := (h.spread.fits b ((ordered_perm plan).mem_iff.mp hmem)).1
    rw [precedes_iff] at hab
    rw [Bool.not_eq_true', decide_eq_false_iff_not] at hlast ⊢
    intro hspan
    refine hlast ?_
    rw [hspan] at hab
    rw [decide_eq_true_eq] at hstop
    dsimp only at hab
    obtain ⟨hstart, hend⟩ : b.span.start = n.start ∧ b.span.stop = n.start := by omega
    exact congrArg₂ Span.mk hstart hend
  have hthere : ((ordered plan).filter (·.span.stop ≤ n.start)).filter
      (fun e => !!decide (e.span = ⟨n.start, n.start⟩)) =
      (ordered plan).filter (·.span = ⟨n.start, n.start⟩) := by
    rw [List.filter_filter]
    refine List.filter_congr fun e _ => ?_
    by_cases hspan : e.span = ⟨n.start, n.start⟩ <;> simp [hspan]
  rw [filter_append_filter_not hpair, hthere, ordered_stable,
    h.filter_at_start hsize hunmarked hunknown, ← List.append_assoc]
  exact ⟨_, rfl⟩

/-- What is put before a literal is right before it. -/
theorem slice_before : ∃ before, (slice (plan.apply file.text) ⟨0, plan.front n.start⟩).toList =
    before ++ (prefixText inAttribute (unknownColors file n)).toList := by
  obtain ⟨es, hes⟩ := h.exists_filter_before hsize hunmarked hunknown
  obtain ⟨part, new, -, hpart, hnew, hreplaced⟩ :=
    h.spread.slice_front h.aligned.start fun e he => h.not_crossed he
  have hbefore : ∀ e ∈ es, e.span.stop ≤ 0 + size part := by
    intro e he
    have hmem : e ∈ (ordered plan).filter (·.span.stop ≤ n.start) := by
      rw [hes]
      exact List.mem_append_left _ he
    rw [Nat.zero_add, hpart]
    simpa using (List.mem_filter.mp hmem).2
  rw [hes] at hreplaced
  obtain ⟨before, hend⟩ := hreplaced.concat hbefore (by rw [Nat.zero_add, hpart]; rfl)
  exact ⟨before, by rw [hnew, String.toList_ofList, hend]; rfl⟩

theorem isMarked_of_unmarked : ∃ before, (slice (plan.apply file.text)
    ⟨0, plan.front n.start⟩).toList = before ++ markerEnd.toList ++ [' '] := by
  obtain ⟨rest, hrest⟩ := h.slice_before hsize hunmarked hunknown
  obtain ⟨before, hprefix⟩ := prefixText_ends inAttribute (unknownColors file n)
  exact ⟨rest ++ before, by rw [hrest, hprefix]; simp only [List.append_assoc]⟩

end

/-- A comment that stood before a literal stands there again. -/
theorem isMarked_of_marked (hsize : 2 ≤ n.stop - n.start) (hmarked : isMarked file n.start)
    (hspares : Spares file n front) : ∃ before blanks, (slice (plan.apply file.text)
      ⟨0, plan.front n.start⟩).toList = before ++ markerEnd.toList ++ blanks ∧
      ∀ c ∈ blanks, isBlank c := by
  obtain ⟨before, blanks, hcut, hblanks⟩ := isMarked_iff.mp hmarked
  obtain ⟨part, new, hpart, hlength, hnew, hreplaced⟩ :=
    h.spread.slice_front h.aligned.start fun e he => h.not_crossed he
  obtain rfl : part = before ++ (markerEnd.toList ++ blanks) := by
    rw [← List.append_assoc, ← hcut, SourceFile.slice, hpart, String.toList_ofList]
  have hfront : ∀ e ∈ (ordered plan).filter (·.span.stop ≤ n.start),
      e.span.stop ≤ 0 + size before := by
    intro e he
    obtain ⟨hmem, hstop⟩ := List.mem_filter.mp he
    rw [decide_eq_true_eq] at hstop
    have hmem := (ordered_perm plan).mem_iff.mp hmem
    have hle := (h.spread.fits e hmem).1
    have hremark : remark file n inAttribute = [] := by
      rw [remark, hmarked, Bool.or_true]
      rfl
    rw [Nat.zero_add]
    rw [h.parts, planLiteral_eq h.plain, hremark, List.append_nil] at hmem
    rcases List.mem_append.mp hmem with hmem | hmem
    · exact hspares before blanks hcut hblanks e hmem
    · rcases List.mem_append.mp hmem with hmem | hmem
      · rw [mem_retouch hmem, content_eq hsize] at hstop
        dsimp only at hstop
        omega
      · have hbehind := h.behind e hmem
        omega
  obtain ⟨before', rfl, -⟩ := hreplaced.append hfront
  exact ⟨before', blanks, by rw [hnew, String.toList_ofList, List.append_assoc], hblanks⟩

/-- After its edits a literal is settled. -/
theorem settled (hspares : Spares file n front) (htext : file'.text = plan.apply file.text)
    (hspan : n'.span = plan.image n.span) : Settled file' n' := by
  intro digits hdigits
  rw [h.slice_content_image htext hspan] at hdigits
  obtain ⟨hbefore, hnone⟩ := color_of_mem_tokenized hdigits
  refine ⟨hnone, ?_⟩
  have hunknown := unknownColors_ne_nil hbefore hnone
  have hsize : 2 ≤ n.stop - n.start := by
    refine Nat.le_of_not_lt fun hsmall => ?_
    have hempty : file.slice n.content = "" := by
      rw [Node.content, if_pos hsmall, SourceFile.slice, slice_of_le (Nat.le_refl _)]
    rw [hempty] at hbefore
    cases hbefore
  have hstart : n'.start = plan.front n.start := (Span.mk.inj hspan).1
  rw [hstart, isMarked_iff, SourceFile.slice, htext]
  cases hmarked : isMarked file n.start with
  | true => exact h.isMarked_of_marked hsize hmarked hspares
  | false =>
    obtain ⟨before, hcut⟩ := h.isMarked_of_unmarked hsize hmarked hunknown
    exact ⟨before, [' '], hcut, List.forall_mem_singleton.mpr (by decide)⟩

end Among

/-- The edits of one literal alone. -/
theorem among_singleton (hplain : isPlain n) (hn : n.Nests) (ha : n.Aligned file.text.toList) :
    Among file inAttribute n [] [] (planLiteral file inAttribute n) :=
  ⟨(placed_planLiteral hn ha).toSpread, by simp, by simp, by simp, hplain, hn, ha⟩

end TokenLint.Codemod.HexColor
