import TokenLint.Proofs.Codemod.HexColor.Rescan
import TokenLint.Proofs.Edit.Apply
import TokenLint.Proofs.Text.Words

/-!
# What a scan finds and what it writes

A scan takes a text piece by piece. The pieces that are colors are all colors of the text, and the
known ones among them, each in its place, are what the new text has tokens for. The others are
listed once each. What a token does to a color before it is for the next scan to see, which finds
none that this one has not listed.
-/
namespace TokenLint.Codemod.HexColor

open Text EditPlan

/-! ### Colors in their places -/

/-- The counts of digits that a color may have, as they are tried. -/
def colorCounts : List Nat := [8, 7, 6, 5, 4, 3]

/-- The colors that a search comes upon. -/
def colorsOf (cs : List Char) : List Occurrence := search (colorWays colorCounts) cs

/-- The colors among the pieces of a text that begins at some place. -/
def placedFrom : Nat → List Piece → List Occurrence
  | _, [] => []
  | place, .plain c :: ps => placedFrom (place + c.utf8Size) ps
  | place, .color ds :: ps => ⟨place, '#' :: ds⟩ :: placedFrom (place + size ('#' :: ds)) ps

theorem zero_not_mem_colorCounts : 0 ∉ colorCounts := by decide

theorem mem_colorCounts {n : Nat} : n ∈ colorCounts ↔ 3 ≤ n ∧ n ≤ 8 := by
  simp only [colorCounts, List.mem_cons, List.not_mem_nil, or_false]
  omega

/-- The digits of a piece are those that the search takes. -/
theorem head?_colorWays (cs : List Char) :
    (colorWays colorCounts ('#' :: cs)).head? = (digitCount? cs).map (· + 1) := by
  obtain ⟨ds, rest, rfl, hds, hrest⟩ := exists_digits cs
  rw [head?_colorWays_append zero_not_mem_colorCounts hds hrest, digitCount?_append hds hrest,
    apply_ite (Option.map _)]
  refine if_congr ?_ rfl rfl
  rw [mem_colorCounts, and_assoc]

theorem searchFrom_eq_placedFrom (place : Nat) (cs : List Char) :
    searchFrom (colorWays colorCounts) 0 place cs = placedFrom place (pieces cs) := by
  induction cs using scan_induction generalizing place with
  | nil => rfl
  | other c cs hc ih =>
    rw [searchFrom, colorWays_cons hc, pieces_cons hc]
    exact ih _
  | hash cs hnone ih =>
    rw [searchFrom, head?_colorWays, hnone, pieces_hash hnone]
    exact ih _
  | color ds rest hsome hds ih =>
    rw [searchFrom, head?_colorWays, hsome, pieces_color hsome, placedFrom]
    dsimp only [Option.map_some]
    rw [List.take_succ_cons, List.take_left, Nat.add_sub_cancel, searchFrom_append, ih, size_cons,
      Nat.add_assoc]

theorem colorsOf_eq (cs : List Char) : colorsOf cs = placedFrom 0 (pieces cs) :=
  searchFrom_eq_placedFrom 0 cs

/-! ### Known colors -/

/-- A color in lower case. -/
def lowered (m : Occurrence) : String := lower (String.ofList m.text)

/-- The token for a color. -/
def tokenOf? (m : Occurrence) : Option String := table.lookup (lowered m)

/-- The edits that put the tokens of known colors in their place. -/
def tokenEdits (ms : List Occurrence) : List Edit :=
  ms.filterMap fun m => (tokenOf? m).map fun token => ⟨⟨m.place, m.place + size m.text⟩, token⟩

/-- The colors without a token, in lower case. -/
def unknownOf (ms : List Occurrence) : List String :=
  (ms.filter fun m => (tokenOf? m).isNone).map lowered

theorem lowered_digits (place : Nat) (ds : List Char) :
    lowered ⟨place, '#' :: ds⟩ = spelled ds := by
  rw [lowered, lower, String.toList_ofList, List.map_cons, spelled]
  rfl

theorem tokenOf?_digits (place : Nat) (ds : List Char) :
    tokenOf? ⟨place, '#' :: ds⟩ = token? ds := by
  rw [tokenOf?, lowered_digits, token?]

/-- No color is in the table twice. -/
theorem tokenOf?_eq_some_iff {m : Occurrence} {token : String} :
    tokenOf? m = some token ↔ (lowered m, token) ∈ table := by
  have hkeys : (table.map Prod.fst).Nodup := by decide
  rw [tokenOf?, List.lookup_eq_some_iff]
  constructor
  · rintro ⟨front, back, htable, -⟩
    rw [htable]
    exact List.mem_append_right _ List.mem_cons_self
  · intro hmem
    obtain ⟨front, back, htable⟩ := List.append_of_mem hmem
    refine ⟨front, back, htable, fun p hp => ?_⟩
    rw [htable, List.map_append, List.map_cons, List.nodup_append] at hkeys
    have hne := hkeys.2.2 p.1 (List.mem_map_of_mem hp) (lowered m) List.mem_cons_self
    simpa using hne.symm

theorem any_isColor_iff (place : Nat) (ps : List Piece) :
    ps.any Piece.isColor ↔ placedFrom place ps ≠ [] := by
  fun_induction placedFrom place ps with
  | case1 => simp
  | case2 place c ps ih => rwa [List.any_cons, Piece.isColor, Bool.false_or]
  | case3 place ds ps => simp [Piece.isColor]

theorem any_isKnown_iff (place : Nat) (ps : List Piece) :
    ps.any Piece.isKnown ↔ ∃ m ∈ placedFrom place ps, (tokenOf? m).isSome := by
  fun_induction placedFrom place ps with
  | case1 => simp
  | case2 place c ps ih => rwa [List.any_cons, Piece.isKnown, Bool.false_or]
  | case3 place ds ps ih =>
    rw [List.any_cons, Bool.or_eq_true, ih, Piece.isKnown, List.exists_mem_cons_iff,
      tokenOf?_digits]

theorem filterMap_unknown (place : Nat) (ps : List Piece) :
    ps.filterMap Piece.unknown? = unknownOf (placedFrom place ps) := by
  fun_induction placedFrom place ps with
  | case1 => rfl
  | case2 place c ps ih => exact ih
  | case3 place ds ps ih =>
    rw [List.filterMap_cons, Piece.unknown?, unknownOf, List.filter_cons, tokenOf?_digits, ih]
    cases token? ds with
    | none => simp [lowered_digits, unknownOf]
    | some token => simp [unknownOf]

/-- The text with tokens has them in place of the known colors, and nothing else is new. -/
theorem replaced_tokenized (place : Nat) (cs : List Char) :
    Replaced place cs (tokenEdits (placedFrom place (pieces cs))) (tokenized cs) := by
  induction cs using scan_induction generalizing place with
  | nil => exact .done place []
  | other c cs hc ih =>
    rw [pieces_cons hc, placedFrom, tokenized_cons hc]
    exact (ih _).append_left [c]
  | hash cs hnone ih =>
    rw [pieces_hash hnone, placedFrom, tokenized_hash hnone]
    exact (ih _).append_left ['#']
  | color ds rest hsome hds ih =>
    rw [pieces_color hsome, placedFrom, tokenEdits, List.filterMap_cons, tokenOf?_digits]
    have hmore := ih (place + size ('#' :: ds))
    cases htoken : token? ds with
    | none =>
      rw [tokenized_unknown hsome htoken]
      exact hmore.append_left ('#' :: ds)
    | some token =>
      rw [tokenized_known hsome htoken]
      let e : Edit := ⟨⟨place, place + size ('#' :: ds)⟩, token⟩
      have hstart : e.span.start = place + size [] := rfl
      exact .edit hstart rfl hmore

/-! ### Scanning -/

theorem scan_eq_none_iff {text : String} : scan text = none ↔ colorsOf text.toList = [] := by
  have hcolor := any_isColor_iff 0 (pieces text.toList)
  rw [scan, colorsOf_eq]
  dsimp only
  split
  · rename_i hany
    simp [hcolor.mp hany]
  · rename_i hany
    simpa using mt hcolor.mpr hany

/-- What a scan finds where there are colors. -/
theorem eq_of_scan {text : String} {found : Scan} (h : scan text = some found) :
    found = ⟨if (pieces text.toList).any Piece.isKnown then
        some (String.ofList (tokenized text.toList)) else none,
      distinct (unknownOf (colorsOf text.toList))⟩ := by
  rw [scan] at h
  dsimp only at h
  split at h
  · rw [colorsOf_eq, ← filterMap_unknown]
    exact (Option.some.inj h).symm
  · cases h

/-- The text that is left has its tokens, whether it had to be rewritten for that or not. -/
theorem toList_revised {text : String} {found : Scan} (h : scan text = some found) :
    (found.revised.getD text).toList = tokenized text.toList := by
  rw [eq_of_scan h]
  dsimp only
  split
  · rw [Option.getD_some, String.toList_ofList]
  · rename_i hany
    have hnone : ∀ p ∈ pieces text.toList, p.isKnown = false := by simpa using hany
    rw [Option.getD_none, tokenized_eq_self hnone]

/-- A second scan finds no known color, and of the others none that the first one has not. -/
theorem scan_again {text : String} {found again : Scan} (h : scan text = some found)
    (hagain : scan (found.revised.getD text) = some again) :
    again.revised = none ∧ ∀ u ∈ again.unknown, u ∈ found.unknown := by
  have hfound := eq_of_scan h
  have hsecond := eq_of_scan hagain
  rw [toList_revised h] at hsecond
  subst hsecond
  refine ⟨if_neg ?_, fun u hu => ?_⟩
  · rw [List.any_eq_true]
    rintro ⟨p, hp, hknown⟩
    cases p with
    | plain c => cases hknown
    | color ds =>
      rw [Piece.isKnown, (color_of_mem_tokenized hp).2] at hknown
      cases hknown
  · rw [hfound, mem_distinct, colorsOf_eq, ← filterMap_unknown, List.mem_filterMap]
    rw [mem_distinct, colorsOf_eq, ← filterMap_unknown, List.mem_filterMap] at hu
    obtain ⟨p, hp, hunknown⟩ := hu
    refine ⟨p, ?_, hunknown⟩
    cases p with
    | plain c => cases hunknown
    | color ds => exact (color_of_mem_tokenized hp).1

/-- What a scan says of a text with colors. -/
structure Reported (text : String) (found : Scan) : Prop where
  revised_iff : found.revised.isSome ↔ ∃ m ∈ colorsOf text.toList, (tokenOf? m).isSome
  revised : ∀ revised, found.revised = some revised →
    Replaced 0 text.toList (tokenEdits (colorsOf text.toList)) revised.toList
  nodup : found.unknown.Nodup
  firstSeen : FirstSeen (unknownOf (colorsOf text.toList)) found.unknown
  /-- In what is left no color of the table is found, and only such as are listed. -/
  again : ∀ again, scan (found.revised.getD text) = some again →
    again.revised = none ∧ ∀ u ∈ again.unknown, u ∈ found.unknown

theorem reported_of_scan {text : String} {found : Scan} (h : scan text = some found) :
    Reported text found := by
  constructor
  case revised_iff =>
    rw [eq_of_scan h, colorsOf_eq, ← any_isKnown_iff]
    simp
  case revised =>
    intro revised hrevised
    have hlist := toList_revised h
    rw [hrevised, Option.getD_some] at hlist
    rw [hlist, colorsOf_eq]
    exact replaced_tokenized 0 text.toList
  case nodup =>
    rw [eq_of_scan h]
    exact nodup_distinct _
  case firstSeen =>
    rw [eq_of_scan h]
    exact firstSeen_distinct _
  case again => exact fun again hagain => scan_again h hagain

/-- What the result of a scan is, by the colors of the text. -/
structure Scanned (text : String) (result : Option Scan) : Prop where
  increasing : (colorsOf text.toList).Pairwise (·.place < ·.place)
  mem_iff : ∀ m, m ∈ colorsOf text.toList ↔ ColorAt [3, 4, 5, 6, 7, 8] text.toList m
  tokens : ∀ m token, tokenOf? m = some token ↔ (lower (String.ofList m.text), token) ∈ table
  eq_none_iff : result = none ↔ colorsOf text.toList = []
  found : ∀ found, result = some found → Reported text found

/-- A scan finds all colors of a text, from three to eight digits, and nothing if there are none.
The text is rewritten if some of them are in the table in any case, and then it has the tokens of
those in their place and is otherwise the same. The rest is listed in lower case, each once and in
the order in which it appears first. A scan of what is left finds no color of the table, and only
such as are listed. -/
theorem scan_exact (text : String) : Scanned text (scan text) := by
  constructor
  case increasing => exact pairwise_searchFrom _ 0 0 _
  case tokens => exact fun m token => tokenOf?_eq_some_iff
  case eq_none_iff => exact scan_eq_none_iff
  case found => exact fun found h => reported_of_scan h
  case mem_iff =>
    intro m
    have hcounts : ∀ n, n ∈ colorCounts ↔ n ∈ [3, 4, 5, 6, 7, 8] := by
      intro n
      simp only [colorCounts, List.mem_cons, List.not_mem_nil, or_false]
      omega
    rw [colorsOf, mem_search_colorWays zero_not_mem_colorCounts]
    simp only [ColorAt, hcounts]

/-- The color before a token is none any more. -/
example :
    scan "#ABC#22C55E #12345678a" =
      some ⟨some "#ABChsl(var(--success)) #12345678a", ["#abc"]⟩ ∧
    scan "#ABChsl(var(--success)) #12345678a" = none := by decide +kernel

end TokenLint.Codemod.HexColor
