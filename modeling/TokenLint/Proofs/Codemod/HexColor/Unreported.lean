import TokenLint.Proofs.Codemod.HexColor.SecondRun
import TokenLint.Proofs.Source.Annotate
import TokenLint.Proofs.Source.Decode
import TokenLint.Rule.RawColor

/-!
# A literal with tokens is no raw color

A token refers to a variable, and a text that does is no raw color. An escape in front of a token
may read its first letter and no more, so the reference is in the text that the literal stands
for.
-/
namespace TokenLint.Codemod.HexColor

open Source Text

/-! ### Known colors of a text -/

/-- A color that has a token stands in a text: the digits behind a `#` are all of a run, and no part
of a word follows them. -/
def HasKnown (cs : List Char) : Prop :=
  ∃ front ds back, cs = front ++ '#' :: (ds ++ back) ∧ (∀ d ∈ ds, isHex d) ∧
    (∀ c ∈ back.head?, isWord c = false) ∧ (token? ds).isSome

variable {cs : List Char}

theorem HasKnown.append (h : HasKnown cs) (before : List Char) : HasKnown (before ++ cs) := by
  obtain ⟨front, ds, back, rfl, hds, hback, hknown⟩ := h
  exact ⟨before ++ front, ds, back, (List.append_assoc _ _ _).symm, hds, hback, hknown⟩

/-- A color is all of a run of digits that no part of a word follows. -/
theorem digits_of_digitCount? {ds rest : List Char}
    (h : digitCount? (ds ++ rest) = some ds.length) :
    (∀ d ∈ ds, isHex d) ∧ ∀ c ∈ rest.head?, isWord c = false := by
  obtain ⟨run, behind, hcut, hrun, hbehind⟩ := exists_digits (ds ++ rest)
  rw [hcut, digitCount?_append hrun hbehind] at h
  split at h
  · rename_i hcolor
    obtain ⟨rfl, rfl⟩ := List.append_inj hcut (Option.some.inj h).symm
    exact ⟨hrun, any_isWord_iff.mp hcolor.2.2⟩
  · cases h

theorem hasKnown_of_mem {p : Piece} (hp : p ∈ pieces cs) (hknown : p.isKnown) : HasKnown cs := by
  induction cs using scan_induction with
  | nil => cases hp
  | other c cs hc ih =>
    rw [pieces_cons hc] at hp
    rcases List.mem_cons.mp hp with rfl | hp
    · cases hknown
    · exact (ih hp).append [c]
  | hash cs hnone ih =>
    rw [pieces_hash hnone] at hp
    rcases List.mem_cons.mp hp with rfl | hp
    · cases hknown
    · exact (ih hp).append ['#']
  | color ds rest hsome hds ih =>
    rw [pieces_color hsome] at hp
    rcases List.mem_cons.mp hp with rfl | hp
    · obtain ⟨hhex, hrest⟩ := digits_of_digitCount? hsome
      exact ⟨[], ds, rest, rfl, hhex, hrest, hknown⟩
    · exact (ih hp).append ('#' :: ds)

theorem length_of_token {ds : List Char} (h : (token? ds).isSome) : ds.length = 6 := by
  have hall : ∀ p ∈ table, p.1.toList.length = 7 := by decide
  obtain ⟨token, htoken⟩ := Option.isSome_iff_exists.mp h
  rw [token?, List.lookup_eq_some_iff] at htoken
  obtain ⟨front, back, htable, -⟩ := htoken
  have hlength : (spelled ds).toList.length = 7 := hall (spelled ds, token) (by simp [htable])
  rw [spelled, String.toList_ofList, List.length_cons, List.length_map] at hlength
  omega

theorem mem_of_hasKnown (h : HasKnown cs) : ∃ p ∈ pieces cs, p.isKnown := by
  obtain ⟨front, ds, back, hcs, hds, hback, hknown⟩ := h
  have hcount : digitCount? (ds ++ back) = some ds.length := by
    have hlength := length_of_token hknown
    rw [digitCount?_append hds fun c hc => isHex_eq_false_of_isWord (hback c hc), if_pos]
    exact ⟨by omega, by omega, any_isWord_iff.mpr hback⟩
  refine ⟨.color ds, ?_, hknown⟩
  induction cs using scan_induction generalizing front with
  | nil => exact absurd hcs (by simp)
  | other c cs hc ih =>
    rw [pieces_cons hc]
    cases front with
    | nil => exact absurd (List.cons.inj hcs).1 hc
    | cons d front => exact List.mem_cons_of_mem _ (ih front (List.cons.inj hcs).2)
  | hash cs hnone ih =>
    rw [pieces_hash hnone]
    cases front with
    | nil =>
      obtain rfl := (List.cons.inj hcs).2
      rw [hcount] at hnone
      cases hnone
    | cons d front => exact List.mem_cons_of_mem _ (ih front (List.cons.inj hcs).2)
  | color ds' rest hsome hds' ih =>
    rw [pieces_color hsome]
    cases front with
    | nil =>
      have hcut := (List.cons.inj hcs).2
      rw [hcut, hcount] at hsome
      obtain ⟨rfl, -⟩ := List.append_inj hcut (Option.some.inj hsome).symm
      exact List.mem_cons_self
    | cons d front =>
      -- the color ends before the next one begins
      rcases List.append_eq_append_iff.mp (List.cons.inj hcs).2 with
        ⟨more, rfl, hrest⟩ | ⟨more, hmore, hback⟩
      · exact List.mem_cons_of_mem _ (ih more hrest)
      · cases more with
        | nil => exact List.mem_cons_of_mem _ (ih [] hback.symm)
        | cons e more =>
          obtain ⟨rfl, -⟩ := List.cons.inj hback
          exact absurd (by rw [hmore]; simp) hds'

/-- A literal's text is rewritten if there is a known color in it, and then each has its token. -/
theorem scan_eq_some_iff {text revised : String} {unknown : List String} :
    scan text = some ⟨some revised, unknown⟩ ↔ HasKnown text.toList ∧
      revised = String.ofList (tokenized text.toList) ∧
      unknown = distinct ((pieces text.toList).filterMap Piece.unknown?) := by
  have hany : (pieces text.toList).any Piece.isKnown ↔ HasKnown text.toList := by
    rw [List.any_eq_true]
    exact ⟨fun ⟨p, hp, hknown⟩ => hasKnown_of_mem hp hknown, mem_of_hasKnown⟩
  have hcolor : (pieces text.toList).any Piece.isKnown →
      (pieces text.toList).any Piece.isColor := by
    simp only [List.any_eq_true]
    rintro ⟨p, hp, hknown⟩
    refine ⟨p, hp, ?_⟩
    cases p with
    | plain c => exact hknown
    | color ds => rfl
  rw [← hany, scan]
  dsimp only
  by_cases hknown : (pieces text.toList).any Piece.isKnown
  · rw [if_pos (hcolor hknown), if_pos hknown, tokenized]
    simp [hknown, eq_comm]
  · rw [if_neg hknown]
    simp [hknown]

/-! ### What a literal with tokens stands for -/

theorem classifyChars_of_reference (h : RawColor.tokenReference.toList <:+: cs) :
    RawColor.classifyChars cs = none := by
  have hsolid : RawColor.tokenReference.toList.all (fun c => !isBlank c) := by decide
  have hplain : ∀ c ∈ RawColor.tokenReference.toList, isBlank c = false :=
    fun c hc => by simpa using List.all_eq_true.mp hsolid c hc
  have htrimmed := contains_iff.mpr (infix_trimChars h hplain)
  unfold RawColor.classifyChars
  dsimp only
  rw [if_pos]
  rw [htrimmed, Bool.or_true]

/-- A token begins with a letter that no escape reads past, and its reference is behind that. -/
theorem token_reference {digits : List Char} {token : String} (h : token? digits = some token) :
    ∃ tail, token.toList = 'h' :: tail ∧ RawColor.tokenReference.toList <:+: tail ∧
      '\\' ∉ tail := by
  have hall : ∀ p ∈ table, p.2.toList = 'h' :: p.2.toList.tail ∧
      contains p.2.toList.tail RawColor.tokenReference.toList ∧ '\\' ∉ p.2.toList.tail := by
    decide +kernel
  rw [token?, List.lookup_eq_some_iff] at h
  obtain ⟨front, back, htable, -⟩ := h
  obtain ⟨hhead, hreference, hplain⟩ := hall (spelled digits, token) (by simp [htable])
  exact ⟨token.toList.tail, hhead, contains_iff.mp hreference, hplain⟩

/-- Whatever is around a token, its reference is in the decoded text. -/
theorem reference_decoded (h : HasKnown cs) :
    RawColor.tokenReference.toList <:+: Literal.decodeChars (tokenized cs) := by
  obtain ⟨p, hp, hknown⟩ := mem_of_hasKnown h
  cases p with
  | plain c => cases hknown
  | color ds =>
    obtain ⟨token, htoken⟩ := Option.isSome_iff_exists.mp hknown
    obtain ⟨front, back, hpieces⟩ := List.append_of_mem hp
    obtain ⟨tail, htail, hreference, hplain⟩ := token_reference htoken
    have hcut : tokenized cs = front.flatMap Piece.revised ++
        'h' :: (tail ++ back.flatMap Piece.revised) := by
      rw [tokenized, hpieces, List.flatMap_append, List.flatMap_cons, Piece.revised, htoken,
        Option.map_some, Option.getD_some, htail]
      rfl
    have houter : Literal.isInner 'h' = false := by decide
    obtain ⟨decoded, hdecoded⟩ := Literal.exists_decodeChars houter
      (front.flatMap Piece.revised) (tail ++ back.flatMap Piece.revised)
    rw [hcut, hdecoded, Literal.decodeChars_append hplain]
    exact (hreference.trans (List.prefix_append _ _).isInfix).trans
      (List.suffix_append _ _).isInfix

theorem classify_decode_tokenized (h : HasKnown cs) :
    RawColor.classify? (Literal.decode (String.ofList (tokenized cs))) = none := by
  rw [RawColor.classify?, Literal.decode, String.toList_ofList, String.toList_ofList]
  exact classifyChars_of_reference (reference_decoded h)

/-- The text of a literal is rewritten if a known color is in it, and then it is no raw color,
whatever escapes are in front of the color. So in the file that a run leaves the rule against raw
colors has nothing to report of the literal. -/
theorem rewritten_unreported :
    (∀ text : String, HasKnown text.toList ↔
      ∃ revised unknown, scan text = some ⟨some revised, unknown⟩) ∧
    (∀ (text revised : String) (unknown : List String),
      scan text = some ⟨some revised, unknown⟩ →
        RawColor.classify? (Literal.decode revised) = none) ∧
    ∀ file file' : SourceFile, file.WellFormed → file'.text = (plan file).apply file.text →
      ∀ n ∈ file.root.preorder, isPlain n → HasKnown (file.slice n.content).toList →
        ∀ n' : Node, n'.span = (plan file).image n.span →
          ∀ (severity : Severity) (context : FileContext) (c : RawColorRule.Candidate),
            c.content = n'.content → RawColorRule.violation? severity context file' c = none := by
  refine ⟨fun text => ⟨fun h => ⟨_, _, scan_eq_some_iff.mpr ⟨h, rfl, rfl⟩⟩, ?_⟩, ?_, ?_⟩
  · rintro ⟨revised, unknown, hscan⟩
    exact (scan_eq_some_iff.mp hscan).1
  · intro text revised unknown hscan
    obtain ⟨hknown, rfl, -⟩ := scan_eq_some_iff.mp hscan
    exact classify_decode_tokenized hknown
  · intro file file' hf htext n hn hplain hknown n' hspan severity context c hc
    obtain ⟨v, hv, rfl⟩ := Node.exists_visit hn
    obtain ⟨before, behind, hamong, -⟩ := among_of_mem hf hv hplain
    have hslice : file'.slice c.content =
        String.ofList (tokenized (file.slice v.node.content).toList) := by
      rw [hc, ← hamong.slice_content_image htext hspan, String.ofList_toList]
    rw [RawColorRule.violation?, hslice, classify_decode_tokenized hknown]
    rfl

/-- A known color between the braces of what would be an escape if digits stood there. -/
def bracedHex : SourceFile := SourceFile.parse "a='\\u\x7b#22C55E\x7d #123'"

/-- The file that a run leaves of it. -/
def bracedHexAgain : SourceFile := SourceFile.parse ("a=/* TODO(ds-migration): replace #123 " ++
  "with semantic design tokens */ '\\u\x7bhsl(var(--success))\x7d #123'")

theorem braced_unreported :
    (HasKnown "\\u\x7b#22C55E\x7d #123".toList ∧ scan "\\u\x7b#22C55E\x7d #123" =
        some ⟨some "\\u\x7bhsl(var(--success))\x7d #123", ["#123"]⟩ ∧
      RawColor.classify? (Literal.decode "\\u\x7bhsl(var(--success))\x7d #123") = none) ∧
    bracedHex.WellFormed ∧ bracedHexAgain.text = (plan bracedHex).apply bracedHex.text ∧
      .mk .string .right 2 20 [] ∈ bracedHex.root.preorder ∧ isPlain (.mk .string .right 2 20 []) ∧
      HasKnown (bracedHex.slice (Node.mk .string .right 2 20 []).content).toList ∧
      (Node.mk .string .right 69 99 []).span =
        (plan bracedHex).image (Node.mk .string .right 2 20 []).span ∧
      RawColorRule.violation? .error ⟨"a.ts", "a.ts"⟩ bracedHexAgain
        ⟨.mk .string .right 69 99 [], (Node.mk .string .right 69 99 []).content⟩ = none := by
  have hscan : scan "\\u\x7b#22C55E\x7d #123" =
      some ⟨some "\\u\x7bhsl(var(--success))\x7d #123", ["#123"]⟩ := by decide +kernel
  have hplan : plan bracedHex = [⟨⟨3, 19⟩, "\\u\x7bhsl(var(--success))\x7d #123"⟩,
      .insert 2 "/* TODO(ds-migration): replace #123 with semantic design tokens */ "] := by
    decide +kernel
  have hf : bracedHex.WellFormed := by decide +kernel
  have htext : bracedHexAgain.text = (plan bracedHex).apply bracedHex.text := by
    rw [hplan, EditPlan.apply_eq_insertionSort (by decide)]
    decide +kernel
  have hn : .mk .string .right 2 20 [] ∈ bracedHex.root.preorder := by decide +kernel
  have hslice : bracedHex.slice (Node.mk .string .right 2 20 []).content =
      "\\u\x7b#22C55E\x7d #123" := by decide +kernel
  have hspan : (Node.mk .string .right 69 99 []).span =
      (plan bracedHex).image (Node.mk .string .right 2 20 []).span := by
    rw [hplan]
    decide +kernel
  have hknown := (rewritten_unreported.1 _).mpr ⟨_, _, hscan⟩
  refine ⟨⟨hknown, hscan, rewritten_unreported.2.1 _ _ _ hscan⟩, hf, htext, hn, by decide,
    by rwa [hslice], hspan, ?_⟩
  exact rewritten_unreported.2.2 bracedHex bracedHexAgain hf htext _ hn (by decide)
    (by rwa [hslice]) _ hspan .error ⟨"a.ts", "a.ts"⟩ _ rfl

end TokenLint.Codemod.HexColor
