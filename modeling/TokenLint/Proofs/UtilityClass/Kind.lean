import TokenLint.Proofs.Color
import TokenLint.Proofs.UtilityClass.Quantity

/-!
# Of which kind a value is

A value bypasses the scale when its utility is one of a kind and it is a value of that kind. Some
utilities are of two kinds, for colors and for sizes, but no value is both. So there is one kind at
most, in whatever order the kinds are tried.
-/
namespace TokenLint.UtilityClass

open Text

/-- The utilities whose values may be of a kind. -/
def utilitiesOf : ArbitraryKind → List String
  | .color => colorUtilities
  | .zIndex => ["z"]
  | .typography => typographyUtilities
  | .dimension => spacingUtilities

/-- The values of a kind. -/
def Suits : ArbitraryKind → String → Prop
  | .color, value => ∃ color, RawColor.classify? value = some color
  | .zIndex, value => IsNumeral (trimChars value.toList)
  | .typography, value => ∃ c ∈ value.toList, isBlank c = false
  | .dimension, value => IsQuantity (trimChars value.toList)

/-- A value of a kind, under a utility of that kind. -/
structure Bypasses (kind : ArbitraryKind) (utility value : String) : Prop where
  utility_mem : utility ∈ utilitiesOf kind
  suits : Suits kind value

/-- The test for a kind. -/
def isOfKind (utility value : String) : ArbitraryKind → Bool
  | .color => colorUtilities.contains utility && (RawColor.classify? value).isSome
  | .zIndex => utility == "z" && isDigits (trimChars value.toList)
  | .typography => typographyUtilities.contains utility && !(trimChars value.toList).isEmpty
  | .dimension => spacingUtilities.contains utility && isMeasure (trimChars value.toList)

/-- The kind of a value when the kinds are tried in some order. -/
def kindBy (order : List ArbitraryKind) (utility value : String) : Option ArbitraryKind :=
  order.find? (isOfKind utility value)

variable {kind kind' : ArbitraryKind} {utility value : String}

theorem kindOf?_eq_kindBy (utility value : String) : kindOf? utility value =
    kindBy [.color, .zIndex, .typography, .dimension] utility value := by
  have htests : kindOf? utility value =
      if isOfKind utility value .color then some .color
      else if isOfKind utility value .zIndex then some .zIndex
      else if isOfKind utility value .typography then some .typography
      else if isOfKind utility value .dimension then some .dimension
      else none := rfl
  rw [htests, kindBy]
  simp only [List.find?]
  cases isOfKind utility value .color <;> cases isOfKind utility value .zIndex <;>
    cases isOfKind utility value .typography <;> cases isOfKind utility value .dimension <;> rfl

theorem isOfKind_iff : isOfKind utility value kind ↔ Bypasses kind utility value := by
  have hparts : Bypasses kind utility value ↔ utility ∈ utilitiesOf kind ∧ Suits kind value :=
    ⟨fun h => ⟨h.utility_mem, h.suits⟩, fun h => ⟨h.1, h.2⟩⟩
  rw [hparts]
  cases kind with
  | color =>
    rw [isOfKind, Bool.and_eq_true, List.contains_iff_mem, Option.isSome_iff_exists]
    rfl
  | zIndex =>
    rw [isOfKind, Bool.and_eq_true, beq_iff_eq, isDigits_iff, utilitiesOf, List.mem_singleton]
    rfl
  | typography =>
    have hblank : (!(trimChars value.toList).isEmpty) = true ↔ Suits .typography value := by
      rw [Bool.not_eq_true', List.isEmpty_eq_false_iff, ne_eq, trimChars_eq_nil_iff, Suits]
      simp
    rw [isOfKind, Bool.and_eq_true, List.contains_iff_mem, hblank]
    rfl
  | dimension =>
    rw [isOfKind, Bool.and_eq_true, List.contains_iff_mem, isMeasure_iff]
    rfl

/-! ### One kind at most -/

/-- Only colors and sizes have utilities in common. -/
theorem kinds_of_utility (h : utility ∈ utilitiesOf kind) (h' : utility ∈ utilitiesOf kind') :
    kind = kind' ∨ kind = .color ∧ kind' = .dimension ∨ kind = .dimension ∧ kind' = .color := by
  have hall : ∀ utility ∈ utilitiesOf kind, utility ∈ utilitiesOf kind' →
      kind = kind' ∨ kind = .color ∧ kind' = .dimension ∨ kind = .dimension ∧ kind' = .color := by
    cases kind <;> cases kind' <;> decide +kernel
  exact hall utility h h'

/-- A color begins with neither a sign nor a digit. -/
theorem not_quantity_of_color (hcolor : Suits .color value) : ¬Suits .dimension value := by
  intro hsize
  have hinitials : ∀ f : RawColor.Form, ∀ c ∈ f.initials, ¬(c = '-' ∨ isDecimal c) := by
    intro f
    refine List.all_iff_forall_prop.mp ?_
    cases f <;> decide
  obtain ⟨color, hclassify⟩ := hcolor
  obtain ⟨-, -, f, hf, -⟩ := RawColor.classify?_eq_some_iff.mp hclassify
  obtain ⟨c, hc, hhead⟩ := RawColor.Form.exists_initial hf
  obtain ⟨d, hhead', hd⟩ := IsQuantity.head hsize
  obtain rfl := Option.some.inj (hhead.symm.trans hhead')
  exact hinitials f c hc hd

theorem Bypasses.eq (h : Bypasses kind utility value) (h' : Bypasses kind' utility value) :
    kind = kind' := by
  rcases kinds_of_utility h.utility_mem h'.utility_mem with hsame | ⟨rfl, rfl⟩ | ⟨rfl, rfl⟩
  · exact hsame
  · exact absurd h'.suits (not_quantity_of_color h.suits)
  · exact absurd h.suits (not_quantity_of_color h'.suits)

/-! ### The kind -/

theorem kindOf?_eq_some_iff : kindOf? utility value = some kind ↔ Bypasses kind utility value := by
  have hmem : kind ∈ [ArbitraryKind.color, .zIndex, .typography, .dimension] := by
    cases kind <;> decide
  rw [kindOf?_eq_kindBy, kindBy, ← isOfKind_iff]
  exact find?_eq_some_iff_of_exclusive hmem fun kind' h h' =>
    (isOfKind_iff.mp h).eq (isOfKind_iff.mp h')

theorem kindBy_perm {order order' : List ArbitraryKind} (h : order.Perm order')
    (utility value : String) : kindBy order utility value = kindBy order' utility value := by
  refine List.find?_eq_find?_of_perm h fun kind hkind kind' hkind' => ?_
  exact (isOfKind_iff.mp hkind.2).eq (isOfKind_iff.mp hkind'.2)

theorem kindOf?_congr {value' : String} (h : trimChars value.toList = trimChars value'.toList) :
    kindOf? utility value = kindOf? utility value' := by
  rw [kindOf?, kindOf?, RawColor.classify?_congr h, h]

/-- As which kind a value of a utility bypasses the scale. -/
structure KindExactly (utility value : String) (found : Option ArbitraryKind) : Prop where
  unique : ∀ kind kind' : ArbitraryKind, Bypasses kind utility value →
    Bypasses kind' utility value → kind = kind'
  eq_some_iff : ∀ kind : ArbitraryKind, found = some kind ↔ Bypasses kind utility value
  eq_none_iff : found = none ↔ ∀ kind, ¬Bypasses kind utility value
  anyOrder : ∀ order : List ArbitraryKind,
    order.Perm [.color, .zIndex, .typography, .dimension] → kindBy order utility value = found
  blanks : ∀ before after : String, (∀ c ∈ before.toList, isBlank c) →
    (∀ c ∈ after.toList, isBlank c) → kindOf? utility (before ++ (value ++ after)) = found

/-- A value bypasses the scale as one kind at most. That is its kind, in whatever order the kinds
are tried, and blanks around the value do not matter. -/
theorem kind_exact (utility value : String) :
    KindExactly utility value (kindOf? utility value) := by
  constructor
  case unique => exact fun kind kind' => Bypasses.eq
  case eq_some_iff => exact fun kind => kindOf?_eq_some_iff
  case eq_none_iff =>
    rw [Option.eq_none_iff_forall_ne_some]
    exact forall_congr' fun kind => not_congr kindOf?_eq_some_iff
  case anyOrder =>
    intro order horder
    rw [kindOf?_eq_kindBy, kindBy_perm horder]
  case blanks =>
    intro before after hbefore hafter
    refine kindOf?_congr ?_
    rw [String.toList_append, String.toList_append, trimChars_blanks _ hbefore hafter]

/-- The same utility has values of both kinds. -/
example : kindOf? "border" " #ccc" = some .color ∧
    kindOf? "border" "-٢.5rem " = some .dimension := by decide +kernel

end TokenLint.UtilityClass
