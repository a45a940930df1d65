import Mathlib.Data.List.Infix
import Mathlib.Data.List.TakeWhile
import TokenLint.UtilityClass
import TokenLint.Proofs.Text.Ends

/-!
# How a class with a value in brackets is read

A class is read as variants, a utility and a value just where it is made of them, and it is made of
them in one way only. The variants end at the last colon, the utility at the first bracket behind a
dash, and the value at the end of the class.
-/
namespace TokenLint

namespace Text

/-- A text is cut at the first place where the part looked for occurs. -/
theorem cut?_eq_some_iff {part cs before after : List Char} :
    cut? part cs = some (before, after) ↔ cs = before ++ (part ++ after) ∧
      ∀ front back, cs = front ++ (part ++ back) → before.length ≤ front.length := by
  induction cs generalizing before with
  | nil =>
    rw [cut?]
    by_cases hpart : part = []
    · simp +contextual [hpart, eq_comm]
    · simp [hpart]
  | cons c cs ih =>
    rw [cut?]
    by_cases hstarts : startsWith (c :: cs) part
    · obtain ⟨rest, hrest⟩ := startsWith_iff.mp hstarts
      rw [if_pos hstarts, ← hrest, List.drop_left, Option.some.injEq, Prod.mk.injEq]
      constructor
      · rintro ⟨rfl, rfl⟩
        exact ⟨rfl, fun _ _ _ => Nat.zero_le _⟩
      · rintro ⟨hcs, hfirst⟩
        obtain rfl := List.eq_nil_of_length_eq_zero (Nat.le_zero.mp (hfirst [] rest rfl))
        exact ⟨rfl, List.append_cancel_left hcs⟩
    · rw [if_neg hstarts, Option.map_eq_some_iff]
      constructor
      · rintro ⟨⟨before', after'⟩, hcut, hparts⟩
        obtain ⟨rfl, rfl⟩ := Prod.mk.inj hparts
        obtain ⟨hcs, hfirst⟩ := ih.mp hcut
        refine ⟨by rw [hcs, List.cons_append], fun front back hfront => ?_⟩
        cases front with
        | nil => exact absurd (startsWith_iff.mpr ⟨back, hfront.symm⟩) hstarts
        | cons d front => exact Nat.succ_le_succ (hfirst front back (List.cons.inj hfront).2)
      · rintro ⟨hcs, hfirst⟩
        cases before with
        | nil => exact absurd (startsWith_iff.mpr ⟨after, hcs.symm⟩) hstarts
        | cons d before =>
          obtain ⟨rfl, hrest⟩ := List.cons.inj hcs
          refine ⟨(before, after), ih.mpr ⟨hrest, fun front back hfront => ?_⟩, rfl⟩
          exact Nat.le_of_succ_le_succ (hfirst (c :: front) back (by rw [hfront, List.cons_append]))

end Text

namespace UtilityClass

open Text

/-- A class made of variants, the last of which ends in a colon, a utility, and a value in
brackets. -/
structure Reads (cs variants utility value : List Char) : Prop where
  parts : cs = variants ++ (utility ++ (['-', '['] ++ (value ++ [']'])))
  ended : variants = [] ∨ variants.getLast? = some ':'
  named : utility ≠ []
  utility_solid : ':' ∉ utility
  value_solid : ':' ∉ value
  first : ¬['-', '['] <:+: utility

/-! ### Variants -/

theorem takeWhile_reverse_append {variants segment : List Char}
    (hended : variants = [] ∨ variants.getLast? = some ':') (hsolid : ':' ∉ segment) :
    ((variants ++ segment).reverse.takeWhile (· != ':')).reverse = segment := by
  have hpass := bne_of_not_mem fun hmem => hsolid (List.mem_reverse.mp hmem)
  have hstop : variants.reverse.takeWhile (· != ':') = [] := by
    rcases hended with rfl | hlast
    · rfl
    · obtain ⟨front, rfl⟩ := List.getLast?_eq_some_iff.mp hlast
      rw [List.reverse_concat, List.takeWhile_cons_of_neg (by decide)]
  rw [List.reverse_append, List.takeWhile_append_of_pos hpass, hstop, List.append_nil,
    List.reverse_reverse]

theorem withoutVariants_append {variants segment : List Char}
    (hended : variants = [] ∨ variants.getLast? = some ':') (hsolid : ':' ∉ segment)
    (hsome : segment ≠ []) : withoutVariants (variants ++ segment) = segment := by
  rw [withoutVariants, takeWhile_reverse_append hended hsolid]
  exact if_neg (by simpa using hsome)

/-- A class is its variants and what is left of it, which has no colon unless the class ends in
one. -/
theorem exists_variants (cs : List Char) : ∃ variants, cs = variants ++ withoutVariants cs ∧
    (variants = [] ∨ variants.getLast? = some ':') ∧
    (':' ∈ withoutVariants cs → cs.getLast? = some ':') := by
  unfold withoutVariants
  dsimp only
  split
  · rename_i hempty
    refine ⟨[], rfl, .inl rfl, fun hmem => ?_⟩
    rcases List.eq_nil_or_concat' cs with rfl | ⟨front, c, rfl⟩
    · cases hmem
    · by_cases hc : c = ':'
      · rw [hc, List.getLast?_concat]
      · rw [List.reverse_concat, List.takeWhile_cons_of_pos (by simpa using hc)] at hempty
        simp at hempty
  · refine ⟨(cs.reverse.dropWhile (· != ':')).reverse, ?_, ?_, fun hmem => ?_⟩
    · rw [← List.reverse_append, List.takeWhile_append_dropWhile, List.reverse_reverse]
    · rw [List.getLast?_reverse, List.reverse_eq_nil_iff]
      have hnot := List.head?_dropWhile_not (· != ':') cs.reverse
      cases hdrop : cs.reverse.dropWhile (· != ':') with
      | nil => exact .inl rfl
      | cons c rest =>
        rw [hdrop] at hnot
        exact .inr (congrArg some (by simpa using hnot))
    · have hpass := List.all_eq_true.mp List.all_takeWhile _ (List.mem_reverse.mp hmem)
      exact absurd hpass (by decide)

/-! ### The class as a whole -/

/-- What is in front of the first bracket behind a dash has no such bracket. -/
theorem first_iff {utility rest : List Char} :
    (∀ front back, utility ++ (['-', '['] ++ rest) = front ++ (['-', '['] ++ back) →
      utility.length ≤ front.length) ↔ ¬['-', '['] <:+: utility := by
  constructor
  · rintro hfirst ⟨front, back, hutility⟩
    have hle := hfirst front (back ++ (['-', '['] ++ rest)) (by rw [← hutility]; simp)
    have hlength := congrArg List.length hutility
    simp only [List.length_append, List.length_cons, List.length_nil] at hlength
    omega
  · intro hnone front back hcut
    rcases List.append_eq_append_iff.mp hcut with ⟨mid, rfl, -⟩ | ⟨mid, rfl, hmid⟩
    · simp
    · -- the bracket would begin in the utility: it is in it, or the dash is its last character
      rcases mid with _ | ⟨c, _ | ⟨d, mid⟩⟩
      · simp
      · simp at hmid
      · obtain ⟨rfl, hbehind⟩ := List.cons.inj hmid
        obtain ⟨rfl, -⟩ := List.cons.inj hbehind
        exact absurd ⟨front, mid, by simp⟩ hnone

theorem exists_reads_of_parseChars? {cs utility value : List Char}
    (h : parseChars? cs = some (utility, value)) : ∃ variants, Reads cs variants utility value := by
  unfold parseChars? at h
  split at h
  · cases h
  · rename_i utility' rest hcut
    split at h
    · cases h
    · rename_i hclosed
      simp only [Bool.or_eq_true, not_or, bne_iff_ne, ne_eq, not_not, List.isEmpty_iff] at hclosed
      obtain ⟨hnamed, hlast⟩ := hclosed
      obtain ⟨value', rfl⟩ := List.getLast?_eq_some_iff.mp hlast
      rw [List.dropLast_concat] at h
      obtain ⟨rfl, rfl⟩ := Prod.mk.inj (Option.some.inj h)
      obtain ⟨hparts, hfirst⟩ := cut?_eq_some_iff.mp hcut
      obtain ⟨variants, hcs, hended, hcolon⟩ := exists_variants cs
      rw [hparts] at hcs hcolon hfirst
      have hend : cs.getLast? = some ']' := by
        rw [hcs, ← List.append_assoc, ← List.append_assoc, ← List.append_assoc,
          List.getLast?_concat]
      have hsolid : ':' ∉ utility' ++ (['-', '['] ++ (value' ++ [']'])) := by
        intro hmem
        rw [hcolon hmem] at hend
        exact absurd hend (by decide)
      refine ⟨variants, hcs, hended, hnamed, ?_, ?_, first_iff.mp hfirst⟩
      · exact fun hmem => hsolid (by simp [hmem])
      · exact fun hmem => hsolid (by simp [hmem])

theorem Reads.parseChars?_eq {cs variants utility value : List Char}
    (h : Reads cs variants utility value) : parseChars? cs = some (utility, value) := by
  have hsolid : ':' ∉ utility ++ (['-', '['] ++ (value ++ [']'])) := by
    simp [h.utility_solid, h.value_solid]
  have hcut : cut? ['-', '['] (withoutVariants cs) = some (utility, value ++ [']']) := by
    rw [h.parts, withoutVariants_append h.ended hsolid (by simp)]
    exact cut?_eq_some_iff.mpr ⟨rfl, first_iff.mpr h.first⟩
  rw [parseChars?, hcut]
  dsimp only
  rw [if_neg (by simp [h.named]), List.dropLast_concat]

theorem parseChars?_eq_some_iff {cs utility value : List Char} :
    parseChars? cs = some (utility, value) ↔ ∃ variants, Reads cs variants utility value :=
  ⟨exists_reads_of_parseChars?, fun ⟨_, h⟩ => h.parseChars?_eq⟩

theorem parse?_eq_some_iff {className : String} {v : BracketedValue} : parse? className = some v ↔
    ∃ variants, Reads className.toList variants v.utility.toList v.value.toList := by
  rw [parse?, Option.map_eq_some_iff]
  constructor
  · rintro ⟨⟨utility, value⟩, hparse, rfl⟩
    rw [String.toList_ofList, String.toList_ofList]
    exact parseChars?_eq_some_iff.mp hparse
  · intro h
    refine ⟨_, parseChars?_eq_some_iff.mpr h, ?_⟩
    dsimp only
    rw [String.ofList_toList, String.ofList_toList]

/-- A class is read in one way. -/
theorem Reads.unique {cs variants variants' utility utility' value value' : List Char}
    (h : Reads cs variants utility value) (h' : Reads cs variants' utility' value') :
    variants = variants' ∧ utility = utility' ∧ value = value' := by
  have hsame := h.parseChars?_eq.symm.trans h'.parseChars?_eq
  obtain ⟨rfl, rfl⟩ := Prod.mk.inj (Option.some.inj hsame)
  exact ⟨List.append_cancel_right (h.parts.symm.trans h'.parts), rfl, rfl⟩

/-- Of a class the utility and the value are read that it is made of behind its variants. Of any
other class nothing is read, and no class is made of parts in two ways. -/
theorem parse_exact :
    (∀ (className : String) (v : BracketedValue), parse? className = some v ↔
      ∃ variants, Reads className.toList variants v.utility.toList v.value.toList) ∧
    (∀ className : String, parse? className = none ↔
      ∀ variants utility value, ¬Reads className.toList variants utility value) ∧
    ∀ cs variants variants' utility utility' value value' : List Char,
      Reads cs variants utility value → Reads cs variants' utility' value' →
        variants = variants' ∧ utility = utility' ∧ value = value' := by
  refine ⟨fun className v => parse?_eq_some_iff, fun className => ?_, ?_⟩
  · rw [parse?, Option.map_eq_none_iff, Option.eq_none_iff_forall_ne_some]
    constructor
    · intro hnone variants utility value h
      exact hnone (utility, value) h.parseChars?_eq
    · rintro hnone ⟨utility, value⟩ hparse
      obtain ⟨variants, h⟩ := parseChars?_eq_some_iff.mp hparse
      exact hnone variants utility value h
  · intro cs variants variants' utility utility' value value' h h'
    exact h.unique h'

/-- A dash may stand in front of the bracket's own, and brackets may stand in the value. -/
example : parse? "[a:b]:é--[[-[x]]" = some ⟨"é-", "[-[x]"⟩ := by decide

end UtilityClass
end TokenLint
