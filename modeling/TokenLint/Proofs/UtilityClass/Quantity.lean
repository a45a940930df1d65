import Mathlib.Data.List.TakeWhile
import TokenLint.UtilityClass
import TokenLint.Proofs.Text.Ends

/-!
# Numbers with a unit

The value of a size is a number, perhaps negative and perhaps with a fraction, and perhaps a unit.
It is read from left to right, as many digits at a time as there are. No unit begins with a digit or
a point, so what is read this way are all numbers with a unit.
-/
namespace TokenLint.UtilityClass

open Text

/-- Decimal digits of any script, one at least. -/
def IsNumeral (ds : List Char) : Prop := ds ≠ [] ∧ ∀ d ∈ ds, isDecimal d

/-- Nothing, or a point and digits. -/
def IsFraction (cs : List Char) : Prop := cs = [] ∨ ∃ ds, cs = '.' :: ds ∧ IsNumeral ds

/-- A number, perhaps negative and perhaps with a fraction, and perhaps a unit. -/
def IsQuantity (t : List Char) : Prop :=
  ∃ sign whole fraction unit, t = sign ++ (whole ++ (fraction ++ unit)) ∧
    (sign = [] ∨ sign = ['-']) ∧ IsNumeral whole ∧ IsFraction fraction ∧ unit ∈ units

theorem isDigits_iff {cs : List Char} : isDigits cs ↔ IsNumeral cs := by
  rw [isDigits, Bool.and_eq_true, Bool.not_eq_true', List.isEmpty_eq_false_iff, List.all_eq_true]
  rfl

theorem IsNumeral.exists_cons {ds : List Char} (h : IsNumeral ds) :
    ∃ d rest, ds = d :: rest ∧ isDecimal d := by
  obtain ⟨d, rest, rfl⟩ := List.exists_cons_of_ne_nil h.1
  exact ⟨d, rest, rfl, h.2 d List.mem_cons_self⟩

/-- All digits in front are read, and there is one at least. -/
theorem decimals?_eq_some_iff {cs rest : List Char} : decimals? cs = some rest ↔
    ∃ ds, cs = ds ++ rest ∧ IsNumeral ds ∧ ∀ c ∈ rest.head?, isDecimal c = false := by
  constructor
  · intro h
    unfold decimals? at h
    split at h
    · cases h
    · rename_i hsome
      obtain rfl := Option.some.inj h
      refine ⟨cs.takeWhile isDecimal, List.takeWhile_append_dropWhile.symm, ⟨?_, ?_⟩, ?_⟩
      · simpa using hsome
      · exact List.all_eq_true.mp List.all_takeWhile
      · intro c hc
        have hnot := List.head?_dropWhile_not isDecimal cs
        rw [Option.mem_def.mp hc] at hnot
        simpa using hnot
  · rintro ⟨ds, rfl, ⟨hsome, hall⟩, hrest⟩
    have hdrop : (ds ++ rest).dropWhile isDecimal = rest := by
      rw [List.dropWhile_append_of_pos hall, dropWhile_eq_self hrest]
    have htake : (ds ++ rest).takeWhile isDecimal ≠ [] := by
      rw [List.takeWhile_append_of_pos hall]
      exact List.append_ne_nil_of_left_ne_nil hsome _
    rw [decimals?, hdrop, if_neg (by simpa using htake)]

theorem map_decimals?_iff {p : List Char → Bool} {cs : List Char} :
    ((decimals? cs).map p).getD false ↔ ∃ ds rest, cs = ds ++ rest ∧ IsNumeral ds ∧
      (∀ c ∈ rest.head?, isDecimal c = false) ∧ p rest := by
  have hsome : ((decimals? cs).map p).getD false ↔ ∃ rest, decimals? cs = some rest ∧ p rest := by
    cases decimals? cs <;> simp
  simp only [hsome, decimals?_eq_some_iff]
  constructor
  · rintro ⟨rest, ⟨ds, hcs, hds, hrest⟩, hp⟩
    exact ⟨ds, rest, hcs, hds, hrest, hp⟩
  · rintro ⟨ds, rest, hcs, hds, hrest, hp⟩
    exact ⟨rest, ⟨ds, hcs, hds, hrest⟩, hp⟩

/-- What is behind the whole digits begins with none. -/
theorem head_not_decimal {fraction unit : List Char} (hfraction : IsFraction fraction)
    (hunit : unit ∈ units) : ∀ c ∈ (fraction ++ unit).head?, isDecimal c = false := by
  have hunits : ∀ unit ∈ units, unit.head?.all (!isDecimal ·) := by decide
  rcases hfraction with rfl | ⟨ds, rfl, -⟩
  · intro c hc
    simpa using (Option.all_eq_true _ _).mp (hunits unit hunit) c hc
  · intro c hc
    obtain rfl : '.' = c := Option.some.inj hc
    decide

theorem isMeasureEnd_iff {cs : List Char} : isMeasureEnd cs ↔
    ∃ fraction unit, cs = fraction ++ unit ∧ IsFraction fraction ∧ unit ∈ units := by
  have hpoint : ∀ unit ∈ units, unit.head? ≠ some '.' := by decide
  unfold isMeasureEnd
  split
  · rename_i rest
    rw [map_decimals?_iff]
    constructor
    · rintro ⟨ds, unit, rfl, hds, -, hunit⟩
      exact ⟨'.' :: ds, unit, rfl, .inr ⟨ds, rfl, hds⟩, List.contains_iff_mem.mp hunit⟩
    · rintro ⟨fraction, unit, hcs, hfraction | ⟨ds, rfl, hds⟩, hunit⟩
      · obtain rfl : '.' :: rest = unit := by rw [hcs, hfraction, List.nil_append]
        exact absurd rfl (hpoint _ hunit)
      · refine ⟨ds, unit, (List.cons.inj hcs).2, hds, ?_, List.contains_iff_mem.mpr hunit⟩
        exact head_not_decimal (.inl rfl) hunit
  · rename_i hnone
    rw [List.contains_iff_mem]
    constructor
    · intro hunit
      exact ⟨[], cs, rfl, .inl rfl, hunit⟩
    · rintro ⟨fraction, unit, rfl, rfl | ⟨ds, rfl, -⟩, hunit⟩
      · exact hunit
      · exact absurd rfl (hnone (ds ++ unit))

/-- What is tested behind the sign, or where there is none. -/
theorem unsigned_iff {cs : List Char} : ((decimals? cs).map isMeasureEnd).getD false ↔
    ∃ whole fraction unit, cs = whole ++ (fraction ++ unit) ∧ IsNumeral whole ∧
      IsFraction fraction ∧ unit ∈ units := by
  rw [map_decimals?_iff]
  constructor
  · rintro ⟨whole, rest, rfl, hwhole, -, hend⟩
    obtain ⟨fraction, unit, rfl, hfraction, hunit⟩ := isMeasureEnd_iff.mp hend
    exact ⟨whole, fraction, unit, rfl, hwhole, hfraction, hunit⟩
  · rintro ⟨whole, fraction, unit, rfl, hwhole, hfraction, hunit⟩
    exact ⟨whole, _, rfl, hwhole, head_not_decimal hfraction hunit,
      isMeasureEnd_iff.mpr ⟨fraction, unit, rfl, hfraction, hunit⟩⟩

theorem isMeasure_iff {cs : List Char} : isMeasure cs ↔ IsQuantity cs := by
  unfold isMeasure
  split
  · rename_i rest
    rw [unsigned_iff]
    constructor
    · rintro ⟨whole, fraction, unit, rfl, h⟩
      exact ⟨['-'], whole, fraction, unit, rfl, .inr rfl, h⟩
    · rintro ⟨sign, whole, fraction, unit, hcs, rfl | rfl, h⟩
      · -- a numeral begins with no sign
        obtain ⟨d, ds, rfl, hd⟩ := h.1.exists_cons
        obtain rfl : '-' = d := (List.cons.inj hcs).1
        exact absurd hd (by decide)
      · exact ⟨whole, fraction, unit, (List.cons.inj hcs).2, h⟩
  · rename_i hnone
    rw [unsigned_iff]
    constructor
    · rintro ⟨whole, fraction, unit, rfl, h⟩
      exact ⟨[], whole, fraction, unit, rfl, .inl rfl, h⟩
    · rintro ⟨sign, whole, fraction, unit, rfl, rfl | rfl, h⟩
      · exact ⟨whole, fraction, unit, rfl, h⟩
      · exact absurd rfl (hnone _)

/-- A quantity begins with a sign or a digit. -/
theorem IsQuantity.head {t : List Char} (h : IsQuantity t) :
    ∃ c, t.head? = some c ∧ (c = '-' ∨ isDecimal c) := by
  obtain ⟨sign, whole, fraction, unit, rfl, rfl | rfl, hwhole, -⟩ := h
  · obtain ⟨d, ds, rfl, hd⟩ := hwhole.exists_cons
    exact ⟨d, rfl, .inr hd⟩
  · exact ⟨'-', rfl, .inl rfl⟩

end TokenLint.UtilityClass
