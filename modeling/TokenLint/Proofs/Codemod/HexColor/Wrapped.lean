import TokenLint.Proofs.Codemod.HexColor.Unreported
import TokenLint.Proofs.Edit.Written
import TokenLint.Proofs.Source.CodeUnits

/-!
# Strings of attributes in braces

As the value of an attribute a string has no escapes, lines may break in it, and its text is here
what is written, character references with it. In the braces that it gets for the comment before it,
it is a literal of the language with the same characters. That stands for the same text if there are
no backslashes and no line breaks; the braces are put around any.
-/
namespace TokenLint.Codemod.HexColor

open Source Text EditPlan

variable {file file' : SourceFile} {n : Node} {cs : List Char}

/-! ### Characters that come from neither colors nor tokens -/

/-- A character that stands in no color and in no token. -/
def IsForeign (c : Char) : Prop := c ≠ '#' ∧ isHex c = false ∧ ∀ p ∈ table, c ∉ p.2.toList

instance (c : Char) : Decidable (IsForeign c) :=
  inferInstanceAs (Decidable (c ≠ '#' ∧ isHex c = false ∧ ∀ p ∈ table, c ∉ p.2.toList))

theorem mem_tokenized_iff {c : Char} (hc : IsForeign c) : c ∈ tokenized cs ↔ c ∈ cs := by
  obtain ⟨hhash, hhex, htable⟩ := hc
  induction cs using scan_induction with
  | nil => rfl
  | other d cs hd ih => rw [tokenized_cons hd, List.mem_cons, List.mem_cons, ih]
  | hash cs hnone ih => rw [tokenized_hash hnone, List.mem_cons, List.mem_cons, ih]
  | color ds rest hsome hds ih =>
    have hdigits : c ∉ ds := fun hmem => by
      have hcolor := (digits_of_digitCount? hsome).1 c hmem
      rw [hhex] at hcolor
      cases hcolor
    cases htoken : token? ds with
    | none => simp [tokenized_unknown hsome htoken, ih]
    | some token =>
      have hnone : c ∉ token.toList := by
        rw [token?, List.lookup_eq_some_iff] at htoken
        obtain ⟨front, back, hall, -⟩ := htoken
        exact htable (spelled ds, token) (by simp [hall])
      simp [tokenized_known hsome htoken, ih, hhash, hdigits, hnone]

/-- The marks of strings. -/
def stringMarks : List Char := ['"', '\'']

theorem isForeign_of_mem {c : Char} (hc : c ∈ stringMarks ∨ c ∈ ['\\', '\n', '\r']) :
    IsForeign c := by
  have hall : (stringMarks ++ ['\\', '\n', '\r']).all fun c => decide (IsForeign c) := by
    decide +kernel
  exact of_decide_eq_true (List.all_eq_true.mp hall c (List.mem_append.mpr hc))

/-! ### What is put around a string -/

/-- Braces are around a range, and a text is before it in them. -/
structure Braced (file : SourceFile) (span : Span) (before : String) : Prop where
  opened : ("\x7b" ++ before).toList <:+ (file.slice ⟨0, span.start⟩).toList
  closed : file.slice ⟨span.stop, span.stop + 1⟩ = "\x7d"

/-- Whether a literal gets a comment. -/
def GetsMark (file : SourceFile) (n : Node) : Prop :=
  unknownColors file n ≠ [] ∧ isMarked file n.start = false

theorem remark_of_getsMark {inAttribute : Bool} (h : GetsMark file n) :
    remark file n inAttribute = mark inAttribute n (unknownColors file n) :=
  if_neg (by simpa [h.2] using h.1)

theorem remark_of_not_getsMark {inAttribute : Bool} (h : ¬GetsMark file n) :
    remark file n inAttribute = [] := by
  refine if_pos ?_
  rw [Bool.or_eq_true, List.isEmpty_iff]
  by_contra hneither
  obtain ⟨hsome, hmarked⟩ := not_or.mp hneither
  exact h ⟨hsome, by simpa using hmarked⟩

namespace Among

variable {front back plan : EditPlan} (h : Among file true n front back plan)
include h

/-- The brace is the first that is put behind a string. -/
theorem insertions_stop (hsize : 2 ≤ n.stop - n.start) (hmark : GetsMark file n) :
    plan.insertions n.stop = .insert n.stop "\x7d" :: back.insertions n.stop := by
  have hfront : front.insertions n.stop = [] := by
    refine List.filter_eq_nil_iff.mpr fun e he hspan => ?_
    have hbefore := h.before e he
    rw [decide_eq_true_eq] at hspan
    rw [hspan] at hbefore
    dsimp only at hbefore
    omega
  have hretouch : (retouch file n).insertions n.stop = [] := by
    refine List.filter_eq_nil_iff.mpr fun e he => ?_
    rw [mem_retouch he, content_eq hsize, decide_eq_true_eq, Span.mk.injEq]
    omega
  have hown : (mark true n (unknownColors file n)).insertions n.stop =
      [.insert n.stop "\x7d"] := by
    have hstart : ¬(⟨n.start, n.start⟩ : Span) = ⟨n.stop, n.stop⟩ := by
      rw [Span.mk.injEq]
      omega
    simp [insertions, mark, Edit.insert, hstart]
  rw [h.parts, planLiteral_eq h.plain, remark_of_getsMark hmark]
  unfold insertions at *
  simp only [List.filter_append, hfront, hretouch, hown, List.nil_append, List.singleton_append]

theorem uncrossed_stop : plan.Uncrossed n.stop := by
  intro e he
  rw [h.parts] at he
  rcases List.mem_append.mp he with he | he
  · exact .inl (Nat.le_trans (h.before e he) h.nests.ordered)
  · rcases List.mem_append.mp he with he | he
    · exact .inl (h.own_within he).2
    · exact .inr (h.behind e he)

/-- A string that gets a comment gets braces around both. -/
theorem braced (hsize : 2 ≤ n.stop - n.start) (hmark : GetsMark file n)
    (htext : file'.text = plan.apply file.text) :
    Braced file' (plan.image n.span) (marker (unknownColors file n) ++ " ") := by
  constructor
  · obtain ⟨before, hbefore⟩ := h.slice_before hsize hmark.2 hmark.1
    refine ⟨before, ?_⟩
    rw [SourceFile.slice, htext]
    exact hbefore.symm
  · have hat := h.insertions_stop hsize hmark
    have hmem : .insert n.stop "\x7d" ∈ plan := by
      have hinserted : .insert n.stop "\x7d" ∈ plan.insertions n.stop := hat ▸ List.mem_cons_self
      exact (List.mem_filter.mp hinserted).1
    have hwritten := h.spread.written_insertion h.uncrossed_stop hat List.not_mem_nil
    have hreads := h.spread.slice_written hmem
    have hone : size "\x7d".toList = 1 := by decide
    have hbrace : size (Edit.insert n.stop "\x7d").text.toList = 1 := hone
    rw [hwritten, inserted, Nat.add_zero, hbrace] at hreads
    rw [SourceFile.slice, htext]
    exact hreads

end Among

/-! ### What a string in braces stands for -/

/-- The body of a string stands in the language for its own characters. -/
def Literally (q : Char) (body : List Char) : Prop := Literal.StringBody q body (Literal.units body)

theorem literally_tokenized_iff {q : Char} (hq : q ∈ stringMarks) (hnone : q ∉ cs) :
    Literally q (tokenized cs) ↔ ∀ c ∈ ['\\', '\n', '\r'], c ∉ cs := by
  have hmem : ∀ c ∈ ['\\', '\n', '\r'], (c ∈ tokenized cs ↔ c ∈ cs) :=
    fun c hc => mem_tokenized_iff (isForeign_of_mem (.inr hc))
  have hmark : q ∉ tokenized cs := mt (mem_tokenized_iff (isForeign_of_mem (.inl hq))).mp hnone
  rw [Literally, Literal.stringBody_units_iff]
  constructor
  · intro h c hc hbad
    exact h c ((hmem c hc).mpr hbad) (List.mem_cons_of_mem _ hc)
  · intro h c hc hbad
    rcases List.mem_cons.mp hbad with rfl | hbad
    · exact hmark hc
    · exact h c hbad ((hmem c hbad).mp hc)

theorem decode_of_literally {q : Char} {body : List Char} (h : Literally q body) :
    Literal.decode (String.ofList body) = String.ofList body := by
  have hplain : '\\' ∉ body := fun hmem =>
    Literal.stringBody_units_iff.mp h '\\' hmem (by simp)
  have hall := Literal.decodeChars_append hplain []
  rw [List.append_nil] at hall
  rw [Literal.decode, String.toList_ofList, hall]
  exact congrArg String.ofList (List.append_nil body)

/-- What becomes of a string that is the value of an attribute. -/
structure Wraps (file file' : SourceFile) (v : Visit) (q : Char) (body : List Char) : Prop where
  /-- It stays between its marks, with tokens for its known colors. -/
  slice_eq : file'.slice ((plan file).image v.node.span) =
    String.ofList (q :: (tokenized body ++ [q]))
  /-- If it gets a comment there are braces around both, whatever else is in it. -/
  braced : GetsMark file v.node → Braced file' ((plan file).image v.node.span)
    (marker (unknownColors file v.node) ++ " ")
  /-- Otherwise nothing is put around it. -/
  alone : ¬GetsMark file v.node →
    ∀ e ∈ planLiteral file (isInAttribute v) v.node, e.span = v.node.content
  literally_iff : Literally q (tokenized body) ↔ ∀ c ∈ ['\\', '\n', '\r'], c ∉ body
  decode_eq : Literally q (tokenized body) →
    Literal.decode (String.ofList (tokenized body)) = String.ofList (tokenized body)

/-- A string that is the value of an attribute stays as it is, with tokens for its known colors, and
gets braces with its comment only. In the language it stands for what it stood for as a value if and
only if there is no backslash and no line break in it, and then decoding changes nothing either. -/
theorem wrapped_literally_iff (hf : file.WellFormed)
    (htext : file'.text = (plan file).apply file.text) {v : Visit} (hv : v ∈ file.root.visits)
    (hkind : v.node.kind = .string) (hattribute : isInAttribute v) {q : Char}
    (hq : q ∈ stringMarks) {body : List Char} (hbody : q ∉ body)
    (hslice : file.slice v.node.span = String.ofList (q :: (body ++ [q]))) :
    Wraps file file' v q body := by
  have hplain : isPlain v.node := by simp [isPlain, hkind]
  have hone : q.utf8Size = 1 := by
    have hall : stringMarks.all fun q => q.utf8Size == 1 := by decide
    exact eq_of_beq (List.all_eq_true.mp hall q hq)
  obtain ⟨before, behind, hamong, -⟩ := among_of_mem hf hv hplain
  rw [hattribute] at hamong
  have hsize : 2 ≤ v.node.stop - v.node.start := by
    obtain ⟨front, back, -, hstart, hstop⟩ := exists_cut_of_slice hslice (List.cons_ne_nil _ _)
    simp only [size_cons, size_append, size_nil, hone, Node.span] at hstart hstop
    omega
  constructor
  case slice_eq =>
    rw [SourceFile.slice, htext]
    exact hamong.slice_image hone hone hslice
  case braced => exact fun hmark => hamong.braced hsize hmark htext
  case alone =>
    intro hmark e he
    rw [planLiteral_eq hplain, remark_of_not_getsMark hmark, List.append_nil] at he
    exact mem_retouch he
  case literally_iff => exact literally_tokenized_iff hq hbody
  case decode_eq => exact decode_of_literally

/-- A string with a known color and another one, and the same after the run. -/
def shades : SourceFile := .parse "a=<p class='#22C55E #123'/>"

def shadesWrapped : SourceFile := .parse ("a=<p class=\x7b/* TODO(ds-migration): replace #123 " ++
  "with semantic design tokens */ 'hsl(var(--success)) #123'\x7d/>")

theorem shades_literally : shades.WellFormed ∧
    shadesWrapped.text = (plan shades).apply shades.text ∧
    ∃ v ∈ shades.root.visits, v.node.kind = .string ∧ isInAttribute v ∧ '\'' ∈ stringMarks ∧
      '\'' ∉ "#22C55E #123".toList ∧
      shades.slice v.node.span = String.ofList ('\'' :: ("#22C55E #123".toList ++ ['\''])) ∧
      GetsMark shades v.node ∧
      Braced shadesWrapped ((plan shades).image v.node.span)
        (marker (unknownColors shades v.node) ++ " ") ∧
      Literally '\'' (tokenized "#22C55E #123".toList) := by
  have hf : shades.WellFormed := by decide +kernel
  have hplan : plan shades = [⟨⟨12, 24⟩, "hsl(var(--success)) #123"⟩,
      .insert 11 "\x7b/* TODO(ds-migration): replace #123 with semantic design tokens */ ",
      .insert 25 "\x7d"] := by decide +kernel
  have htext : shadesWrapped.text = (plan shades).apply shades.text := by
    rw [hplan, EditPlan.apply_eq_insertionSort (by decide)]
    decide +kernel
  obtain ⟨v, hv, hkind, hattribute, hslice, hmark⟩ : ∃ v ∈ shades.root.visits,
      v.node.kind = .string ∧ isInAttribute v ∧
      shades.slice v.node.span = String.ofList ('\'' :: ("#22C55E #123".toList ++ ['\''])) ∧
      unknownColors shades v.node ≠ [] ∧ isMarked shades v.node.start = false := by decide +kernel
  have hbody : '\'' ∉ "#22C55E #123".toList := by decide
  have hwraps := wrapped_literally_iff hf htext hv hkind hattribute (q := '\'') (by decide) hbody
    hslice
  refine ⟨hf, htext, v, hv, hkind, hattribute, by decide, hbody, hslice, hmark,
    hwraps.braced hmark, hwraps.literally_iff.mpr ?_⟩
  simp only [List.forall_mem_cons]
  exact ⟨by decide, by decide, by decide, by simp⟩

/-- A string in which a line breaks, and one with a backslash. -/
def twoLines : SourceFile := .parse "a=<p class='flex\n#123'/>"

def backslash : SourceFile := .parse "a=<p class='\\d#123'/>"

/-- Both get braces. The one is no literal then, and the other stands for another text. -/
theorem twoLines_wrapped :
    ((∃ v ∈ twoLines.root.visits, v.node.kind = .string ∧ isInAttribute v ∧
        twoLines.slice v.node.span = "'flex\n#123'") ∧
      (plan twoLines).apply twoLines.text = "a=<p class=\x7b/* TODO(ds-migration): replace #123 " ++
        "with semantic design tokens */ 'flex\n#123'\x7d/>" ∧
      ∀ us, ¬Literal.StringBody '\'' "flex\n#123".toList us) ∧
    (∃ v ∈ backslash.root.visits, v.node.kind = .string ∧ isInAttribute v ∧
        backslash.slice v.node.span = "'\\d#123'") ∧
      (plan backslash).apply backslash.text =
        "a=<p class=\x7b/* TODO(ds-migration): replace #123 " ++
        "with semantic design tokens */ '\\d#123'\x7d/>" ∧
      Literal.decode "\\d#123" = "d#123" := by
  have hlines : plan twoLines =
      [.insert 11 "\x7b/* TODO(ds-migration): replace #123 with semantic design tokens */ ",
        .insert 22 "\x7d"] := by decide +kernel
  have hslash : plan backslash =
      [.insert 11 "\x7b/* TODO(ds-migration): replace #123 with semantic design tokens */ ",
        .insert 19 "\x7d"] := by decide +kernel
  refine ⟨⟨by decide +kernel, ?_, ?_⟩, by decide +kernel, ?_, by decide⟩
  · rw [hlines, EditPlan.apply_eq_insertionSort (by decide)]
    decide +kernel
  · exact Literal.not_stringBody_of_break (by decide) (b := '\n') (by decide) (by decide)
  · rw [hslash, EditPlan.apply_eq_insertionSort (by decide)]
    decide +kernel

end TokenLint.Codemod.HexColor
