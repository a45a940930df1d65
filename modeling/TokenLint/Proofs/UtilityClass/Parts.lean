import TokenLint.Proofs.Color
import TokenLint.Proofs.UtilityClass.Quantity
import TokenLint.Proofs.UtilityClass.Reading

/-!
# Parts of a class with a value in brackets

A class that is read as a utility and a value ends in the value, in brackets. Of the values, a
color in digits and a measure have no bracket that closes.
-/
namespace TokenLint.UtilityClass

open Text

theorem exists_bracket_of_parse? {className : String} {v : BracketedValue}
    (h : parse? className = some v) :
    ∃ front, className.toList = front ++ ('[' :: (v.value.toList ++ [']'])) := by
  obtain ⟨variants, hreads⟩ := parse?_eq_some_iff.mp h
  refine ⟨variants ++ (v.utility.toList ++ ['-']), ?_⟩
  rw [hreads.parts]
  simp

/-! ### Values without a bracket -/

theorem not_mem_of_isHexColor {cs : List Char} (h : RawColor.isHexColor cs) : ']' ∉ cs := by
  obtain ⟨digits, rfl, -, hdigits⟩ := RawColor.isHexColor_iff.mp h
  refine List.not_mem_cons_of_ne_of_not_mem (by decide) fun hmem => ?_
  exact absurd (hdigits _ hmem) (by decide)

theorem IsNumeral.not_mem {ds : List Char} (h : IsNumeral ds) : ']' ∉ ds := by
  intro hmem
  exact absurd (h.2 _ hmem) (by decide)

theorem not_mem_of_isMeasure {cs : List Char} (h : isMeasure cs) : ']' ∉ cs := by
  have hunits : ∀ unit ∈ units, ']' ∉ unit := by decide
  obtain ⟨sign, whole, fraction, unit, rfl, hsign, hwhole, hfraction, hunit⟩ := isMeasure_iff.mp h
  have hsigned : ']' ∉ sign := by rcases hsign with rfl | rfl <;> decide
  have hfractioned : ']' ∉ fraction := by
    rcases hfraction with rfl | ⟨ds, rfl, hds⟩
    · exact List.not_mem_nil
    · exact List.not_mem_cons_of_ne_of_not_mem (by decide) hds.not_mem
  simp [hsigned, hwhole.not_mem, hfractioned, hunits unit hunit]

end TokenLint.UtilityClass
