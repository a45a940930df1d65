import Mathlib.Data.List.TakeWhile
import TokenLint.Guard.Scan
import TokenLint.Proofs.Text.Words
import TokenLint.Proofs.UtilityClass.Kind
import TokenLint.Proofs.UtilityClass.Parts

/-!
# Bracketed values that the guard finds

The guard finds a bracketed value just where a bracket is opened and a color or a unit begins
before the next one closes, whatever else is open by then. So it passes over no class whose value
the rule takes for a color in hexadecimal digits or a size in pixels.
-/
namespace TokenLint.Guard

open Text UtilityClass

/-! ### When there is a bracketed value -/

theorem isSome_lastTrigger?_iff {cs : List Char} : (lastTrigger? cs).isSome ↔
    ∃ suffix, suffix <:+ cs ∧ suffix ≠ [] ∧ (triggerLength? suffix).isSome := by
  induction cs with
  | nil => simp [lastTrigger?]
  | cons c cs ih =>
    rw [lastTrigger?, Option.isSome_or, Option.isSome_map, Bool.or_eq_true, ih]
    constructor
    · rintro (⟨suffix, hsuffix, hne, htrigger⟩ | htrigger)
      · exact ⟨suffix, hsuffix.trans (List.suffix_cons c cs), hne, htrigger⟩
      · exact ⟨c :: cs, List.suffix_rfl, List.cons_ne_nil c cs, htrigger⟩
    · rintro ⟨suffix, hsuffix, hne, htrigger⟩
      rcases List.suffix_cons_iff.mp hsuffix with rfl | hsuffix
      · exact Or.inr htrigger
      · exact Or.inl ⟨suffix, hsuffix, hne, htrigger⟩

/-- The characters of an open bracket, up to one that closes. -/
def opened (rest : List Char) : List Char := rest.takeWhile (· != ']')

/-- The text ends here, or a bracket closes. -/
def Closes (tail : List Char) : Prop := ∀ c ∈ tail.head?, c = ']'

theorem closes_nil : Closes [] := fun _ h => by cases h

theorem closes_cons (rest : List Char) : Closes (']' :: rest) := fun _ h => (Option.some.inj h).symm

theorem opened_append {inner tail : List Char} (h : ']' ∉ inner) (htail : Closes tail) :
    opened (inner ++ tail) = inner := by
  rw [opened, List.takeWhile_append_of_pos (bne_of_not_mem h)]
  cases tail with
  | nil => simp
  | cons c tail =>
    obtain rfl := htail c rfl
    rw [List.takeWhile_cons_of_neg (by decide), List.append_nil]

/-- Nothing is found just where no trigger follows in any open bracket. What was found before does
not matter, as it was found. -/
theorem bracketed_eq_nil_iff {cs : List Char} : bracketed cs = [] ↔
    ∀ front rest, cs = front ++ '[' :: rest → lastTrigger? (opened rest) = none := by
  unfold bracketed
  induction cs with
  | nil => simp [bracketedFrom]
  | cons c cs ih =>
    -- the bracket is the first character or a later one
    have hsplit : (∀ front rest, c :: cs = front ++ '[' :: rest →
          lastTrigger? (opened rest) = none) ↔
        (c = '[' → lastTrigger? (opened cs) = none) ∧ bracketedFrom 0 cs = [] := by
      rw [ih]
      constructor
      · intro h
        refine ⟨fun hc => h [] cs (by rw [hc]; rfl), fun front rest hcs => ?_⟩
        exact h (c :: front) rest (by rw [hcs]; rfl)
      · rintro ⟨hfirst, hlater⟩ front rest hcs
        cases front with
        | nil =>
          obtain ⟨rfl, rfl⟩ := List.cons.inj hcs
          exact hfirst rfl
        | cons d front => exact hlater front rest (List.cons.inj hcs).2
    rw [hsplit, bracketedFrom]
    by_cases hc : c = '['
    · rw [if_pos (by simpa using hc)]
      cases htrigger : lastTrigger? (cs.takeWhile (· != ']')) with
      | none => simp [opened, htrigger]
      | some n => simp [opened, htrigger, hc]
    · rw [if_neg (by simpa using hc)]
      simp [hc]

/-- A value in brackets is found, wherever it stands, if a trigger begins in it. -/
theorem bracketed_ne_nil {cs value suffix : List Char} (h : '[' :: (value ++ [']']) <:+: cs)
    (hclosed : ']' ∉ value) (hsuffix : suffix <:+ value) (hne : suffix ≠ [])
    (htrigger : (triggerLength? suffix).isSome) : bracketed cs ≠ [] := by
  intro hnil
  obtain ⟨front, back, rfl⟩ := h
  have hopened : opened (value ++ ']' :: back) = value :=
    opened_append hclosed (closes_cons back)
  have hnone := bracketed_eq_nil_iff.mp hnil front (value ++ ']' :: back) (by simp)
  have hsome := isSome_lastTrigger?_iff.mpr ⟨suffix, hsuffix, hne, htrigger⟩
  rw [hopened] at hnone
  rw [hnone] at hsome
  cases hsome

/-! ### Triggers in values -/

theorem isSome_triggerLength?_of_isHexColor {cs : List Char} (h : RawColor.isHexColor cs) :
    (triggerLength? cs).isSome := by
  obtain ⟨ds, rfl, hcount, hdigits⟩ := RawColor.isHexColor_iff.mp h
  have hlength : 3 ≤ ds.length := by
    simp only [List.mem_cons, List.not_mem_nil, or_false] at hcount
    omega
  have hrun : ds.takeWhile isHex = ds := List.takeWhile_eq_self_iff.mpr hdigits
  rw [triggerLength?, hrun, if_pos (by omega)]
  rfl

theorem isHexColor_of_classify? {value literal : String}
    (h : RawColor.classify? value = some (.hex literal)) :
    RawColor.isHexColor (trimChars value.toList) := by
  obtain ⟨-, -, f, hf, hcolor⟩ := RawColor.classify?_eq_some_iff.mp h
  cases f with
  | hex => exact RawColor.isHexColor_iff.mpr hf
  | rgb => cases hcolor
  | hsl => cases hcolor

theorem isMeasure_of_kindOf? {utility value : String}
    (h : kindOf? utility value = some .dimension) : isMeasure (trimChars value.toList) :=
  isMeasure_iff.mpr (kindOf?_eq_some_iff.mp h).suits

/-! ### The guard beside the rule -/

/-- Whether the rule takes a class for a color in hexadecimal digits, or for a size whose value
ends in `px`. -/
def IsHexOrPixels (className : String) : Prop :=
  ∃ v, parse? className = some v ∧
    (classify? className = some .color ∧
        (∃ literal, RawColor.classify? v.value = some (.hex literal)) ∨
      classify? className = some .dimension ∧ endsWith v.value.toList "px".toList)

theorem bracketed_ne_nil_of_isHexOrPixels {cs : List Char} {className : String}
    (hword : IsWord className) (hcs : className.toList <:+: cs) (h : IsHexOrPixels className) :
    bracketed cs ≠ [] := by
  obtain ⟨v, hparse, h⟩ := h
  obtain ⟨front, hfront⟩ := exists_bracket_of_parse? hparse
  have hinfix : '[' :: (v.value.toList ++ [']']) <:+: cs := by
    refine List.IsInfix.trans ?_ hcs
    rw [hfront]
    exact (List.suffix_append _ _).isInfix
  have htrim : trimChars v.value.toList = v.value.toList := by
    refine trimChars_eq_self fun c hc => hword.2 c ?_
    rw [hfront]
    simp [hc]
  rcases h with ⟨-, literal, hhex⟩ | ⟨hkind, hpixels⟩
  · have hcolor := isHexColor_of_classify? hhex
    rw [htrim] at hcolor
    have hne : v.value.toList ≠ [] := by
      intro hnil
      rw [hnil] at hcolor
      cases hcolor
    exact bracketed_ne_nil hinfix (not_mem_of_isHexColor hcolor) List.suffix_rfl hne
      (isSome_triggerLength?_of_isHexColor hcolor)
  · rw [classify?, hparse, Option.bind_some] at hkind
    have hmeasure := isMeasure_of_kindOf? hkind
    rw [htrim] at hmeasure
    exact bracketed_ne_nil hinfix (not_mem_of_isMeasure hmeasure) (endsWith_iff.mp hpixels)
      (by decide) (by decide)

/-- Where the guard finds no bracketed value, no word is one that the rule takes for a color in
hexadecimal digits or a size in pixels. -/
theorem no_hexOrPixels_of_scan (file text : String)
    (h : ∀ hit ∈ scan file text, hit.kind ≠ .arbitrary) :
    ∀ className ∈ words text, ¬IsHexOrPixels className := by
  intro className hmem hclass
  have hfound := bracketed_ne_nil_of_isHexOrPixels (isWord_of_mem_words hmem)
    (infix_of_mem_words hmem) hclass
  obtain ⟨value, hvalue⟩ := List.exists_mem_of_ne_nil _ hfound
  refine h ⟨file, .arbitrary, String.ofList value⟩ ?_ rfl
  exact List.mem_append_right _ (List.mem_map_of_mem hvalue)

theorem tokens_no_hexOrPixels :
    (∀ hit ∈ scan "a.mdx" "[md:bg-[var(--fg)] w-[50%]\n#0ea5e9", hit.kind ≠ .arbitrary) ∧
    "w-[50%]" ∈ words "[md:bg-[var(--fg)] w-[50%]\n#0ea5e9" ∧ ¬IsHexOrPixels "w-[50%]" := by
  have hscan : ∀ hit ∈ scan "a.mdx" "[md:bg-[var(--fg)] w-[50%]\n#0ea5e9",
      hit.kind ≠ .arbitrary := by decide
  have hword : "w-[50%]" ∈ words "[md:bg-[var(--fg)] w-[50%]\n#0ea5e9" := by decide
  exact ⟨hscan, hword, no_hexOrPixels_of_scan _ _ hscan _ hword⟩

/-- A bracket that is open before the class does not hide its value. -/
example : (scan "a.mdx" "[see w-[742px]").map (·.value) = ["[see w-[742px"] := by decide

end TokenLint.Guard
