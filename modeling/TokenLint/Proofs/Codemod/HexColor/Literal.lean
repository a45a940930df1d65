import TokenLint.Proofs.Codemod.HexColor
import TokenLint.Proofs.Codemod.HexColor.Rescan
import TokenLint.Proofs.Edit.Around
import TokenLint.Proofs.Text.Words

/-!
# The text of a literal after its edits

The edits of a literal are apart from those of all others, so among the edits of a file they do what
they do alone: the known colors in it become tokens, and no other of its characters is changed.
-/
namespace TokenLint.Codemod.HexColor

open Source Text EditPlan

/-- Every color of a literal is without a token, and a comment stands before the literal. -/
def Settled (file : SourceFile) (n : Node) : Prop :=
  ∀ digits, .color digits ∈ pieces (file.slice n.content).toList →
    token? digits = none ∧ isMarked file n.start

/-! ### The edits for a literal -/

section
variable (file : SourceFile) (n : Node)

/-- The edit of the text of a literal. -/
def retouch : EditPlan :=
  if (pieces (file.slice n.content).toList).any Piece.isKnown then
    [⟨n.content, String.ofList (tokenized (file.slice n.content).toList)⟩]
  else []

/-- The colors that the comment names. -/
def unknownColors : List String :=
  distinct ((pieces (file.slice n.content).toList).filterMap Piece.unknown?)

/-- The edits that put the comment before a literal. -/
def remark (inAttribute : Bool) : EditPlan :=
  if (unknownColors file n).isEmpty || isMarked file n.start then []
  else mark inAttribute n (unknownColors file n)

end

variable {file file' : SourceFile} {n n' : Node} {inAttribute : Bool}

theorem unknownColors_ne_nil {digits : List Char}
    (h : .color digits ∈ pieces (file.slice n.content).toList) (hnone : token? digits = none) :
    unknownColors file n ≠ [] := by
  have hmem : spelled digits ∈ unknownColors file n := by
    refine mem_distinct.mpr (List.mem_filterMap.mpr ⟨_, h, ?_⟩)
    rw [Piece.unknown?, hnone]
    rfl
  exact List.ne_nil_of_mem hmem

theorem planLiteral_eq (h : isPlain n) :
    planLiteral file inAttribute n = retouch file n ++ remark file n inAttribute := by
  rw [planLiteral, h, if_neg (by decide), scan]
  by_cases hcolor : (pieces (file.slice n.content).toList).any Piece.isColor
  · have hretouch : ((if (pieces (file.slice n.content).toList).any Piece.isKnown then
        some (String.ofList (tokenized (file.slice n.content).toList)) else none).map
          fun text => (⟨n.content, text⟩ : Edit)).toList = retouch file n := by
      rw [retouch]
      split <;> rfl
    rw [if_pos hcolor, ← hretouch, remark, unknownColors, tokenized]
  · have hplain : ∀ p ∈ pieces (file.slice n.content).toList, p.isColor = false := by
      simpa using hcolor
    have hknown : retouch file n = [] := by
      refine if_neg ?_
      rw [List.any_eq_true]
      rintro ⟨p, hp, hknown⟩
      have hp := hplain p hp
      cases p <;> simp_all [Piece.isColor, Piece.isKnown]
    have hunknown : unknownColors file n = [] := by
      have hnil : (pieces (file.slice n.content).toList).filterMap Piece.unknown? = [] := by
        refine List.filterMap_eq_nil_iff.mpr fun p hp => ?_
        have hp := hplain p hp
        cases p <;> simp_all [Piece.isColor, Piece.unknown?]
      rw [unknownColors, hnil]
      rfl
    have hremark : remark file n inAttribute = [] := by
      rw [remark, hunknown, List.isEmpty_nil, Bool.true_or, if_pos rfl]
    rw [if_neg hcolor, hknown, hremark]
    rfl

/-- A literal that is settled gets no edits. -/
theorem planLiteral_of_settled (h : Settled file n) : planLiteral file inAttribute n = [] := by
  cases hplain : isPlain n with
  | false =>
    rw [planLiteral, hplain]
    rfl
  | true =>
    have hretouch : retouch file n = [] := by
      refine if_neg ?_
      rw [List.any_eq_true]
      rintro ⟨p, hp, hknown⟩
      cases p with
      | plain c => cases hknown
      | color digits =>
        rw [Piece.isKnown, (h digits hp).1] at hknown
        cases hknown
    have hremark : remark file n inAttribute = [] := by
      refine if_pos ?_
      cases hunknown : (unknownColors file n).isEmpty with
      | true => rw [Bool.true_or]
      | false =>
        rw [Bool.false_or]
        obtain ⟨color, hcolor⟩ := List.exists_mem_of_ne_nil _ (by simpa using hunknown)
        obtain ⟨p, hp, hp'⟩ := List.mem_filterMap.mp (mem_distinct.mp hcolor)
        cases p with
        | plain c => cases hp'
        | color digits => exact (h digits hp).2
    rw [planLiteral_eq hplain, hretouch, hremark, List.append_nil]

/-! ### The text of a literal -/

/-- Between two marks of one byte stands what a literal holds. -/
theorem slice_content {q q' : Char} {body : List Char}
    (h : file.slice n.span = String.ofList (q :: (body ++ [q']))) (hq : q.utf8Size = 1)
    (hq' : q'.utf8Size = 1) : file.slice n.content = String.ofList body := by
  obtain ⟨front, back, htext, hstart, hstop⟩ := exists_cut_of_slice h (List.cons_ne_nil _ _)
  simp only [size_cons, size_append, size_nil, hq, hq', Node.span] at hstart hstop
  have hcontent : n.content = ⟨n.start + 1, n.stop - 1⟩ := by
    rw [Node.content, if_neg (by omega)]
  have hcut : file.text.toList = (front ++ [q]) ++ (body ++ q' :: back) := by simp [htext]
  refine slice_eq hcut ?_ ?_
  · rw [hcontent, size_append, size_cons, size_nil, hq, hstart]
  · rw [hcontent, size_append, size_cons, size_nil, hq]
    dsimp only
    omega

/-- A literal begins and ends with marks. -/
theorem exists_marks (ha : n.Aligned file.text.toList) (hk : n.kind = .string ∨ n.kind = .template)
    (hsize : 2 ≤ n.stop - n.start) : ∃ q body q', q.utf8Size = 1 ∧ q'.utf8Size = 1 ∧
      file.slice n.span = String.ofList (q :: (body ++ [q'])) := by
  obtain ⟨⟨a, a', ha₁, hsa⟩, ⟨d, d', hd, hsd⟩⟩ := ha.quoted hk hsize
  obtain ⟨b, b', hb, hsb⟩ := ha.start
  obtain ⟨e, e', he, hse⟩ := ha.stop
  obtain ⟨first, rfl, rfl⟩ := exists_mid (hb.symm.trans ha₁) (by omega)
  obtain ⟨body, rfl, rfl⟩ := exists_mid (ha₁.symm.trans hd) (by omega)
  obtain ⟨last, rfl, rfl⟩ := exists_mid (hd.symm.trans he) (by omega)
  simp only [size_append] at hsa hsd hse
  obtain ⟨q, rfl, hq⟩ := eq_singleton_of_size (by omega : size first = 1)
  obtain ⟨q', rfl, hq'⟩ := eq_singleton_of_size (by omega : size last = 1)
  have hcut : file.text.toList = b ++ (q :: (body ++ [q']) ++ e') := by simp [hb]
  refine ⟨q, body, q', hq, hq', slice_eq hcut hsb ?_⟩
  simp only [size_cons, size_append, size_nil, Node.span]
  omega

/-- A plan that spreads, with the edits for a literal between edits before it and behind it. -/
structure Among (file : SourceFile) (inAttribute : Bool) (n : Node) (front back plan : EditPlan) :
    Prop where
  spread : plan.Spread file.text.toList
  parts : plan = front ++ (planLiteral file inAttribute n ++ back)
  before : ∀ e ∈ front, e.span.stop ≤ n.start
  behind : ∀ e ∈ back, n.stop ≤ e.span.start
  plain : isPlain n
  nests : n.Nests
  aligned : n.Aligned file.text.toList

theorem mem_remark {e : Edit} (h : e ∈ remark file n inAttribute) :
    e.span = ⟨n.start, n.start⟩ ∨ e.span = ⟨n.stop, n.stop⟩ := by
  unfold remark at h
  split at h
  · cases h
  · exact mem_mark h

theorem mem_retouch {e : Edit} (h : e ∈ retouch file n) : e.span = n.content := by
  unfold retouch at h
  split at h
  · rw [List.mem_singleton.mp h]
  · cases h

theorem content_eq (hsize : 2 ≤ n.stop - n.start) : n.content = ⟨n.start + 1, n.stop - 1⟩ := by
  rw [Node.content, if_neg (by omega)]

namespace Among

variable {front back plan : EditPlan} (h : Among file inAttribute n front back plan)
include h

/-- Only the edit of its text reaches into a literal. -/
theorem filter_reaches (hsize : 2 ≤ n.stop - n.start) :
    (ordered plan).filter (reaches n.span) = retouch file n := by
  have hnone : ∀ es : EditPlan, (∀ e ∈ es, e.span.stop ≤ n.start ∨ n.stop ≤ e.span.start) →
      es.filter (reaches n.span) = [] := by
    intro es hes
    refine List.filter_eq_nil_iff.mpr fun e he => ?_
    have hside := hes e he
    rw [reaches_iff]
    dsimp only [Node.span]
    omega
  have hall : (retouch file n).filter (reaches n.span) = retouch file n := by
    refine List.filter_eq_self.mpr fun e he => ?_
    rw [reaches_iff, mem_retouch he, content_eq hsize]
    dsimp only [Node.span]
    omega
  have hmark : ∀ e ∈ remark file n inAttribute, e.span.stop ≤ n.start ∨ n.stop ≤ e.span.start := by
    intro e he
    rcases mem_remark he with hspan | hspan <;> simp [hspan]
  have hfilter : plan.filter (reaches n.span) = retouch file n := by
    rw [h.parts, planLiteral_eq h.plain, List.filter_append, List.filter_append, List.filter_append,
      hnone front fun e he => .inl (h.before e he), hall, hnone _ hmark,
      hnone back fun e he => .inr (h.behind e he)]
    simp
  have hperm := (ordered_perm plan).filter (reaches n.span)
  rw [hfilter] at hperm
  unfold retouch at hperm ⊢
  split
  · rename_i hknown
    rw [if_pos hknown] at hperm
    exact List.perm_singleton.mp hperm
  · rename_i hknown
    rw [if_neg hknown] at hperm
    exact List.perm_nil.mp hperm

/-- Between the marks of a literal its known colors have their tokens. -/
theorem slice_image {q q' : Char} {body : List Char} (hq : q.utf8Size = 1) (hq' : q'.utf8Size = 1)
    (hold : file.slice n.span = String.ofList (q :: (body ++ [q']))) :
    slice (plan.apply file.text) (plan.image n.span) =
      String.ofList (q :: (tokenized body ++ [q'])) := by
  have hbody : (file.slice n.content).toList = body := by
    rw [slice_content hold hq hq', String.toList_ofList]
  have hsize : 2 ≤ n.stop - n.start := by
    obtain ⟨front, back, -, hstart, hstop⟩ := exists_cut_of_slice hold (List.cons_ne_nil _ _)
    simp only [size_cons, size_append, size_nil, hq, hq', Node.span] at hstart hstop
    omega
  have hfilter := h.filter_reaches hsize
  have hwithin : ∀ e ∈ plan, reaches n.span e → e.span.Within n.span := by
    intro e he hreach
    have hmem : e ∈ (ordered plan).filter (reaches n.span) :=
      List.mem_filter.mpr ⟨(ordered_perm plan).mem_iff.mpr he, hreach⟩
    rw [hfilter] at hmem
    rw [mem_retouch hmem]
    exact Node.content_within h.nests
  obtain ⟨part, new, hpart, hstop, hnew, hreplaced⟩ := h.spread.slice_image_of_reaches
    (h.aligned.isRange h.nests) (Nat.lt_of_sub_pos (Nat.lt_of_lt_of_le Nat.two_pos hsize)) hwithin
  obtain rfl : part = q :: (body ++ [q']) := String.ofList_injective (hpart.symm.trans hold)
  have hmarks : new = q :: (tokenized body ++ [q']) := by
    rw [hfilter, retouch, hbody] at hreplaced
    split at hreplaced
    · have hedited : Replaced n.start ([q] ++ (body ++ [q']))
          [⟨n.content, String.ofList (tokenized body)⟩]
          ([q] ++ (String.ofList (tokenized body)).toList ++ [q']) := by
        refine .edit ?_ ?_ (.done _ _)
        · rw [content_eq hsize, size_cons, size_nil, hq]
        · simp only [Node.span, size_cons, size_append, size_nil, hq, hq'] at hstop
          rw [content_eq hsize]
          dsimp only
          omega
      rw [hreplaced.unique hedited, String.toList_ofList, List.append_assoc]
      rfl
    · rename_i hnone
      rw [hreplaced.unique (.done _ _), tokenized_eq_self (by simpa using hnone)]
  rw [hnew, hmarks]

section
variable (htext : file'.text = plan.apply file.text) (hspan : n'.span = plan.image n.span)
include hspan

/-- A literal without room for two marks holds nothing, before and after. -/
theorem slice_content_of_small (hsize : n.stop - n.start < 2) :
    file.slice n.content = "" ∧ file'.slice n'.content = "" := by
  have hempty : file.slice n.content = "" := by
    rw [Node.content, if_pos hsize, SourceFile.slice, slice_of_le (Nat.le_refl _)]
  have hown : planLiteral file inAttribute n = [] := by
    refine planLiteral_of_settled fun digits hdigits => ?_
    rw [hempty] at hdigits
    cases hdigits
  have hnone : ∀ e ∈ plan, ¬reaches n.span e := by
    intro e he
    rw [h.parts, hown, List.nil_append] at he
    rw [reaches_iff]
    dsimp only [Node.span]
    rcases List.mem_append.mp he with he | he
    · have hbefore := h.before e he
      omega
    · have hbehind := h.behind e he
      omega
  have hsmall := h.spread.image_size_le (h.aligned.isRange h.nests) hnone
  rw [← hspan] at hsmall
  dsimp only [Node.span] at hsmall
  refine ⟨hempty, ?_⟩
  rw [Node.content, if_pos (Nat.lt_of_le_of_lt hsmall hsize), SourceFile.slice,
    slice_of_le (Nat.le_refl _)]

include htext

/-- A literal in the new text has tokens for its known colors. -/
theorem slice_content_image : (file'.slice n'.content).toList =
    tokenized (file.slice n.content).toList := by
  rcases Nat.lt_or_ge (n.stop - n.start) 2 with hsmall | hsize
  · obtain ⟨hold, hnew⟩ : file.slice n.content = "" ∧ file'.slice n'.content = "" :=
      h.slice_content_of_small hspan hsmall
    rw [hold, hnew]
    rfl
  · obtain ⟨q, body, q', hq, hq', hold⟩ :=
      exists_marks h.aligned (kind_of_isPlain h.plain) hsize
    have hnew := h.slice_image hq hq' hold
    rw [← htext, ← hspan] at hnew
    rw [slice_content hnew hq hq', slice_content hold hq hq', String.toList_ofList,
      String.toList_ofList]

end

end Among

end TokenLint.Codemod.HexColor
