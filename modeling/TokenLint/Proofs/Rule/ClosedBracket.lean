import TokenLint.Rule.ArbitraryValue
import TokenLint.Proofs.UtilityClass.Kind
import TokenLint.Proofs.UtilityClass.Reading

/-!
# Brackets that close at once

The rule looks only at classes that have a bracket behind a dash with something in it, up to the
next bracket that closes, while a value goes up to the end of the class. So of a value that begins
with a bracket that closes the rule may see nothing. Such a value is no color, number or size. It is
one for typography, and only there the rule says nothing of a class that has a kind.
-/
namespace TokenLint

namespace UtilityClass

open Text

/-- Behind some dash a bracket holds something up to the next one that closes. -/
def HoldsBracket (cs : List Char) : Prop :=
  ∃ front inner back, cs = front ++ (['-', '['] ++ (inner ++ ']' :: back)) ∧
    inner ≠ [] ∧ ']' ∉ inner

theorem bracketAt_iff {cs : List Char} : bracketAt cs ↔
    ∃ inner back, cs = ['-', '['] ++ (inner ++ ']' :: back) ∧ inner ≠ [] ∧ ']' ∉ inner := by
  unfold bracketAt
  split
  · rename_i rest
    constructor
    · intro h
      split at h
      · cases h
      · rename_i d back hdrop
        have hclosing := List.head?_dropWhile_not (· != ']') rest
        rw [hdrop] at hclosing
        obtain rfl : d = ']' := by simpa using hclosing
        obtain ⟨inner, hinner⟩ : ∃ inner, inner = rest.takeWhile (· != ']') := ⟨_, rfl⟩
        have hrest : rest = inner ++ ']' :: back := by
          rw [hinner, ← hdrop, List.takeWhile_append_dropWhile]
        refine ⟨inner, back, by rw [hrest]; rfl, ?_, fun hmem => ?_⟩
        · rintro rfl
          rw [hrest] at h
          exact absurd h (by simp)
        · rw [hinner] at hmem
          exact absurd (List.all_eq_true.mp List.all_takeWhile _ hmem) (by decide)
    · rintro ⟨inner, back, hcs, hsome, hinner⟩
      obtain rfl : rest = inner ++ ']' :: back := by simpa using hcs
      rw [List.dropWhile_append_of_pos (bne_of_not_mem hinner),
        List.dropWhile_cons_of_neg (by decide)]
      obtain ⟨c, inner, rfl⟩ := List.exists_cons_of_ne_nil hsome
      have hc := List.ne_of_not_mem_cons hinner
      simpa using hc.symm
  · rename_i hnone
    constructor
    · intro h
      cases h
    · rintro ⟨inner, back, rfl, -⟩
      exact absurd rfl (hnone _)

theorem hasBracket_iff {cs : List Char} : hasBracket cs ↔ HoldsBracket cs := by
  induction cs with
  | nil => simp [hasBracket, HoldsBracket]
  | cons c cs ih =>
    rw [hasBracket, Bool.or_eq_true, bracketAt_iff, ih]
    constructor
    · rintro (⟨inner, back, hcs, h⟩ | ⟨front, inner, back, rfl, h⟩)
      · exact ⟨[], inner, back, hcs, h⟩
      · exact ⟨c :: front, inner, back, rfl, h⟩
    · rintro ⟨front, inner, back, hcs, h⟩
      cases front with
      | nil => exact .inl ⟨inner, back, hcs, h⟩
      | cons d front => exact .inr ⟨front, inner, back, (List.cons.inj hcs).2, h⟩

/-- A value that begins with something else is held by its bracket. -/
theorem Reads.holdsBracket {cs variants utility value : List Char} {c : Char}
    (h : Reads cs variants utility (c :: value)) (hc : c ≠ ']') : HoldsBracket cs := by
  obtain ⟨inner, back, hcut, hinner⟩ : ∃ inner back, value ++ [']'] = inner ++ ']' :: back ∧
      ']' ∉ inner := List.eq_append_cons_of_mem (by simp)
  refine ⟨variants ++ utility, c :: inner, back, ?_, List.cons_ne_nil _ _,
    List.not_mem_cons_of_ne_of_not_mem hc.symm hinner⟩
  have hvalue : c :: value ++ [']'] = c :: inner ++ ']' :: back := by
    rw [List.cons_append, hcut, List.cons_append]
  rw [h.parts, hvalue, List.append_assoc]

/-! ### Values that begin with a bracket -/

variable {kind : ArbitraryKind} {value : String}

/-- But for typography, values without the blanks around them begin with something other than a
bracket. -/
theorem Suits.head (h : Suits kind value) (hkind : kind ≠ .typography) :
    ∃ c, (trimChars value.toList).head? = some c ∧ c ≠ ']' := by
  have hdecimal : isDecimal ']' = false := by decide
  cases kind with
  | color =>
    have hinitials : ∀ f : RawColor.Form, ∀ c ∈ f.initials, c ≠ ']' := by
      intro f
      cases f <;> simp [RawColor.Form.initials]
    obtain ⟨color, hclassify⟩ := h
    obtain ⟨-, -, f, hf, -⟩ := RawColor.classify?_eq_some_iff.mp hclassify
    obtain ⟨c, hc, hhead⟩ := RawColor.Form.exists_initial hf
    exact ⟨c, hhead, hinitials f c hc⟩
  | zIndex =>
    obtain ⟨d, rest, htrim, hd⟩ := IsNumeral.exists_cons h
    refine ⟨d, by rw [htrim, List.head?_cons], ?_⟩
    rintro rfl
    exact absurd hd (by simp [hdecimal])
  | typography => exact absurd rfl hkind
  | dimension =>
    obtain ⟨c, hhead, hc⟩ := IsQuantity.head h
    refine ⟨c, hhead, ?_⟩
    rintro rfl
    exact absurd hc (by simp [hdecimal])

theorem not_suits_of_nil (h : value.toList = []) : ¬Suits kind value := by
  intro hsuits
  by_cases hkind : kind = .typography
  · subst hkind
    obtain ⟨c, hc, -⟩ := hsuits
    rw [h] at hc
    cases hc
  · obtain ⟨c, hhead, -⟩ := hsuits.head hkind
    rw [h] at hhead
    cases hhead

theorem suits_iff_of_closing {rest : List Char} (h : value.toList = ']' :: rest) :
    Suits kind value ↔ kind = .typography := by
  have hblank : isBlank ']' = false := by decide
  constructor
  · intro hsuits
    by_contra hkind
    obtain ⟨c, hhead, hc⟩ := hsuits.head hkind
    rw [h, head?_trimChars hblank] at hhead
    exact hc (Option.some.inj hhead).symm
  · rintro rfl
    exact ⟨']', by rw [h]; exact List.mem_cons_self, hblank⟩

/-! ### Classes that are passed over -/

/-- A class for typography whose value begins with a bracket that closes, and in which no bracket
behind a dash holds anything up to the next that closes. -/
def Overlooked (className : String) : Prop :=
  ∃ variants utility value, Reads className.toList variants utility (']' :: value) ∧
    String.ofList utility ∈ typographyUtilities ∧ ¬HoldsBracket className.toList

variable {className : String}

theorem not_overlooked_of_parse?_eq_none (h : parse? className = none) : ¬Overlooked className := by
  rintro ⟨variants, utility, value, hreads, -, -⟩
  rw [parse?, hreads.parseChars?_eq] at h
  cases h

/-- A class is read in one way, so that reading tells whether it is passed over. -/
theorem overlooked_iff_of_parse? {v : BracketedValue} (h : parse? className = some v) :
    Overlooked className ↔ (∃ rest, v.value.toList = ']' :: rest) ∧
      v.utility ∈ typographyUtilities ∧ ¬HoldsBracket className.toList := by
  obtain ⟨variants, hreads⟩ := parse?_eq_some_iff.mp h
  constructor
  · rintro ⟨variants', utility, rest, hreads', hutility, hnone⟩
    obtain ⟨-, hsame, hvalue⟩ := hreads.unique hreads'
    rw [← hsame, String.ofList_toList] at hutility
    exact ⟨⟨rest, hvalue⟩, hutility, hnone⟩
  · rintro ⟨⟨rest, hvalue⟩, hutility, hnone⟩
    rw [hvalue] at hreads
    refine ⟨variants, _, rest, hreads, ?_, hnone⟩
    rwa [String.ofList_toList]

/-- A class in which no such bracket holds anything is of a kind only when it is passed over. -/
theorem classify?_eq_some_iff_of_not_holdsBracket (h : ¬HoldsBracket className.toList) :
    classify? className = some kind ↔ Overlooked className ∧ kind = .typography := by
  cases hparse : parse? className with
  | none =>
    have hnot := not_overlooked_of_parse?_eq_none hparse
    rw [classify?, hparse, Option.bind_none]
    exact iff_of_false (by simp) fun hover => hnot hover.1
  | some v =>
    obtain ⟨variants, hreads⟩ := parse?_eq_some_iff.mp hparse
    rw [classify?, hparse, Option.bind_some, kindOf?_eq_some_iff, overlooked_iff_of_parse? hparse]
    constructor
    · intro hbypasses
      obtain ⟨rest, hvalue⟩ : ∃ rest, v.value.toList = ']' :: rest := by
        cases hvalue : v.value.toList with
        | nil => exact absurd hbypasses.suits (not_suits_of_nil hvalue)
        | cons c rest =>
          -- any other character would be held by the bracket before it
          rw [hvalue] at hreads
          obtain rfl : c = ']' := by
            by_contra hc
            exact h (hreads.holdsBracket hc)
          exact ⟨rest, rfl⟩
      obtain rfl := (suits_iff_of_closing hvalue).mp hbypasses.suits
      exact ⟨⟨⟨rest, hvalue⟩, hbypasses.utility_mem, h⟩, rfl⟩
    · rintro ⟨⟨⟨rest, hvalue⟩, hutility, -⟩, rfl⟩
      exact ⟨hutility, (suits_iff_of_closing hvalue).mpr rfl⟩

end UtilityClass

namespace ArbitraryValueRule

open UtilityClass

variable {config : Config} {className : String}

theorem kindOf?_of_holdsBracket (hexempt : config.isClassExempt className = false)
    (h : HoldsBracket className.toList) : kindOf? config className = classify? className := by
  have hshape : hasArbitraryValue className := hasBracket_iff.mpr h
  rw [kindOf?, hshape, hexempt]
  rfl

theorem kindOf?_of_not_holdsBracket (h : ¬HoldsBracket className.toList) :
    kindOf? config className = none := by
  have hshape : hasArbitraryValue className = false :=
    Bool.eq_false_iff.mpr (hasBracket_iff.not.mpr h)
  rw [kindOf?, hshape]
  rfl

/-- The verdict of the rule on a class that no pattern exempts is that on its utility and value, but
for the classes that are passed over: they are for typography, and the rule says nothing of them. -/
theorem kindOf?_eq_classify?_iff (hexempt : config.isClassExempt className = false) :
    (kindOf? config className = classify? className ↔ ¬Overlooked className) ∧
    (Overlooked className →
      kindOf? config className = none ∧ classify? className = some .typography) := by
  by_cases hbracket : HoldsBracket className.toList
  · have hnot : ¬Overlooked className := fun ⟨_, _, _, _, _, hnone⟩ => hnone hbracket
    exact ⟨iff_of_true (kindOf?_of_holdsBracket hexempt hbracket) hnot, fun h => absurd h hnot⟩
  · have hkind : ∀ kind, classify? className = some kind ↔ Overlooked className ∧
        kind = .typography := fun _ => classify?_eq_some_iff_of_not_holdsBracket hbracket
    rw [kindOf?_of_not_holdsBracket hbracket]
    refine ⟨?_, fun hover => ⟨rfl, (hkind _).mpr ⟨hover, rfl⟩⟩⟩
    rw [eq_comm, Option.eq_none_iff_forall_ne_some]
    constructor
    · intro hnone hover
      exact hnone .typography ((hkind _).mpr ⟨hover, rfl⟩)
    · intro hnot kind hclassify
      exact hnot ((hkind kind).mp hclassify).1

/-- The defaults, but that the classes of layers are exempt. -/
def layersExempt : Config := { exemptClasses := (Config.compilePatterns ["^z-"]).toOption.getD [] }

theorem hoverTracking_kindOf?_eq_classify?_iff :
    layersExempt.isClassExempt "hover:tracking-[]em]" = false ∧
    Overlooked "hover:tracking-[]em]" ∧
    kindOf? layersExempt "hover:tracking-[]em]" ≠ classify? "hover:tracking-[]em]" ∧
    kindOf? layersExempt "hover:tracking-[]em]" = none ∧
    classify? "hover:tracking-[]em]" = some .typography := by
  have hexempt : layersExempt.isClassExempt "hover:tracking-[]em]" = false := by decide +kernel
  have hparse : parseChars? "hover:tracking-[]em]".toList =
      some ("tracking".toList, ']' :: "em".toList) := by decide
  have hover : Overlooked "hover:tracking-[]em]" := by
    obtain ⟨variants, hreads⟩ := parseChars?_eq_some_iff.mp hparse
    exact ⟨variants, _, _, hreads, by decide, hasBracket_iff.not.mp (by decide)⟩
  obtain ⟨hsame, hpassed⟩ := kindOf?_eq_classify?_iff hexempt
  exact ⟨hexempt, hover, fun h => hsame.mp h hover, hpassed hover⟩

/-- The value makes the class one for typography, but the bracket closes before anything is in
it. -/
theorem leadingClosed_unreported :
    ({} : Config).isClassExempt "leading-[]]" = false ∧
    kindOf? {} "leading-[]]" ≠ classify? "leading-[]]" := by decide +kernel

/-- Another bracket in the value brings the class back. -/
example : kindOf? {} "leading-[]-[0]]" = some .typography := by decide +kernel

end ArbitraryValueRule
end TokenLint
