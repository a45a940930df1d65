import TokenLint.Guard.Scan
import TokenLint.Proofs.Text.Ends
import TokenLint.Proofs.Text.HexRun

/-!
# Colors that the guard finds

The guard reports each color of a text once, in order, but for black and white in their short
spelling. It tries the counts of digits from the lowest on, and gets to all colors all the same:
those of a longer run too, and those next to a run that is none.
-/
namespace TokenLint.Guard

open Text

/-- The counts of digits that a color may have, as the guard tries them. -/
def colorCounts : List Nat := [3, 4, 6, 8]

/-- The colors that a search comes upon. -/
def colorsOf (cs : List Char) : List Occurrence := search (colorWays colorCounts) cs

theorem zero_not_mem_colorCounts : 0 ∉ colorCounts := by decide

/-- The digits that the guard asks for are those that the search takes. -/
theorem head?_colorWays (cs : List Char) : (colorWays colorCounts ('#' :: cs)).head? =
    if isColorTail cs then some ((cs.takeWhile isHex).length + 1) else none := by
  obtain ⟨ds, rest, rfl, hds, hrest⟩ := exists_digits cs
  rw [head?_colorWays_append zero_not_mem_colorCounts hds hrest, isColorTail,
    takeWhile_isHex_append hds hrest, List.drop_left]
  refine if_congr ?_ rfl rfl
  rw [Bool.and_eq_true, List.contains_iff_mem, Bool.not_eq_true', colorCounts]

theorem map_text_beginningsFrom (place : Nat) (cs : List Char) :
    (beginningsFrom (colorWays colorCounts) place cs).map (·.text) = hexColors cs := by
  induction cs generalizing place with
  | nil => rfl
  | cons c cs ih =>
    rw [beginningsFrom, hexColors]
    by_cases hc : c = '#'
    · subst hc
      rw [head?_colorWays]
      by_cases htail : isColorTail cs
      · have htake : cs.take (cs.takeWhile isHex).length = cs.takeWhile isHex :=
          List.prefix_iff_eq_take.mp (List.takeWhile_prefix isHex) |>.symm
        rw [if_pos htail, if_pos (by simp [htail])]
        dsimp only
        rw [List.map_cons, ih, List.take_succ_cons, htake]
      · rw [if_neg htail, if_neg (by simp [htail])]
        exact ih _
    · rw [colorWays_cons hc, if_neg (by simp [hc])]
      exact ih _

theorem hexColors_eq (cs : List Char) : hexColors cs = (colorsOf cs).map (·.text) := by
  rw [colorsOf, search_eq_beginningsFrom (solitary_colorWays zero_not_mem_colorCounts),
    map_text_beginningsFrom]

/-- A color in digits is a raw color, as it is written. -/
theorem classifyChars_of_digits {digits : List Char} (hlength : digits.length ∈ colorCounts)
    (hdigits : ∀ d ∈ digits, isHex d) : RawColor.classifyChars ('#' :: digits) =
      some (.hex (String.ofList ('#' :: digits))) := by
  have hall : ∀ {P : Char → Prop}, (∀ d, isHex d → P d) → P '#' → ∀ c ∈ '#' :: digits, P c :=
    fun h hhash => List.forall_mem_cons.mpr ⟨hhash, fun d hd => h d (hdigits d hd)⟩
  have hblank : ∀ c ∈ '#' :: digits, isBlank c = false :=
    hall (fun d hd => forall_isHex (P := fun c => isBlank c = false) (by decide) hd) (by decide)
  have hletter : ∀ c ∈ '#' :: digits, c ≠ 'v' :=
    hall (fun d hd => by rintro rfl; exact absurd hd (by decide)) (by decide)
  have htoken : contains ('#' :: digits) RawColor.tokenReference.toList = false := by
    rw [Bool.eq_false_iff, ne_eq, contains_iff]
    intro h
    exact hletter 'v' (h.subset (by decide)) rfl
  have hhex : RawColor.isHexColor ('#' :: digits) := by
    rw [RawColor.isHexColor, Bool.and_eq_true, List.all_eq_true]
    exact ⟨List.contains_iff_mem.mpr hlength, hdigits⟩
  rw [RawColor.classifyChars, trimChars_eq_self hblank, htoken, if_pos hhex]
  rfl

theorem classifyChars_of_colorAt {cs : List Char} {m : Occurrence}
    (h : ColorAt colorCounts cs m) :
    RawColor.classifyChars m.text = some (.hex (String.ofList m.text)) := by
  obtain ⟨front, digits, back, -, -, htext, hlength, hdigits, -⟩ := h
  rw [htext, classifyChars_of_digits hlength hdigits]

theorem filter_hex (file text : String) : (scan file text).filter (·.kind = .hex) =
    ((hexColors text.toList).filterMap reportedHex?).map (⟨file, .hex, ·⟩) := by
  rw [scan, List.filter_append, List.filter_eq_self.mpr, List.filter_eq_nil_iff.mpr,
    List.append_nil]
  · simp
  · intro hit hhit
    obtain ⟨literal, -, rfl⟩ := List.mem_map.mp hhit
    rfl

/-- What the hits for colors in a text are. -/
structure ColorHits (file text : String) (hits : List Hit) : Prop where
  /-- They are the colors of the text without `#000` and `#fff` in any case. -/
  hits_eq : hits =
    ((colorsOf text.toList).filter fun m => lower (String.ofList m.text) ∉ allowedHexes).map
      (fun m => ⟨file, .hex, String.ofList m.text⟩)
  increasing : (colorsOf text.toList).Pairwise (·.place < ·.place)
  mem_iff : ∀ m, m ∈ colorsOf text.toList ↔ ColorAt [3, 4, 6, 8] text.toList m
  raw : ∀ m ∈ colorsOf text.toList,
    RawColor.classify? (String.ofList m.text) = some (.hex (String.ofList m.text))

/-- The hits for colors are the colors of the text in order, each once, without the allowed ones.
The search from left to right that tries the lower counts first comes upon all of them, and each is
a raw color. -/
theorem colorHits_exact (file text : String) :
    ColorHits file text ((scan file text).filter (·.kind = .hex)) := by
  have hmem : ∀ m, m ∈ colorsOf text.toList ↔ ColorAt [3, 4, 6, 8] text.toList m :=
    fun m => mem_search_colorWays zero_not_mem_colorCounts
  have hraw : ∀ m ∈ colorsOf text.toList,
      RawColor.classifyChars m.text = some (.hex (String.ofList m.text)) :=
    fun m hm => classifyChars_of_colorAt ((hmem m).mp hm)
  refine ⟨?hits, pairwise_searchFrom _ 0 0 _, hmem, ?raw⟩
  case hits =>
    have hreported : ∀ m ∈ colorsOf text.toList, reportedHex? m.text =
        if lower (String.ofList m.text) ∉ allowedHexes then some (String.ofList m.text)
        else none := by
      intro m hm
      rw [reportedHex?, hraw m hm]
      dsimp only
      simp only [List.contains_iff_mem, ite_not]
    rw [filter_hex, hexColors_eq, List.filterMap_map, ← List.filterMap_eq_filter,
      List.map_filterMap, List.map_filterMap]
    refine List.filterMap_congr fun m hm => ?_
    rw [Function.comp_apply, hreported m hm]
    by_cases hallowed : lower (String.ofList m.text) ∈ allowedHexes <;>
      simp [Option.guard, hallowed]
  case raw =>
    intro m hm
    rw [RawColor.classify?, String.toList_ofList, hraw m hm]

/-- A run that is too long is no color, nor is one that a word goes on behind, and a color may come
right behind either. -/
example : (scan "a.css" "#12345#abcd #FFF#1a2b3cx #1A2B3C;").map (·.value) =
    ["#abcd", "#1A2B3C"] := by decide +kernel

end TokenLint.Guard
