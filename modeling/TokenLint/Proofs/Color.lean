import Mathlib.Data.Bool.AllAny
import Mathlib.Data.List.Find
import Mathlib.Data.List.Forall2
import TokenLint.Color
import TokenLint.Proofs.Text.Ends
import TokenLint.Proofs.Text.Folding

/-!
# Which texts are raw colors

A raw color has one of three forms, and what it begins with tells which. So the tests for the forms
may run in any order. Blanks around a text change nothing, and the literal of a color is that color.
-/
namespace TokenLint

/-- Of tests that exclude each other the one is found that holds, wherever it stands. -/
theorem find?_eq_some_iff_of_exclusive {α : Type} {p : α → Bool} {tests : List α} {a : α}
    (ha : a ∈ tests) (hp : ∀ b, p a → p b → a = b) : tests.find? p = some a ↔ p a := by
  constructor
  · exact List.find?_some
  · intro hholds
    obtain ⟨b, hb⟩ := Option.isSome_iff_exists.mp (List.find?_isSome.mpr ⟨a, ha, hholds⟩)
    rw [hb, hp b hholds (List.find?_some hb)]

namespace RawColor

open Text Folding

/-! ### Forms -/

/-- A hash and three, four, six or eight hexadecimal digits. -/
def IsHexCode (t : List Char) : Prop :=
  ∃ digits, t = '#' :: digits ∧ digits.length ∈ [3, 4, 6, 8] ∧ ∀ d ∈ digits, isHex d

/-- A name in any case, perhaps with an `a` behind it, and then arguments up to the one parenthesis
that closes. -/
def IsCall (name t : List Char) : Prop :=
  ∃ word arguments, t = word ++ '(' :: (arguments ++ [')']) ∧ ')' ∉ arguments ∧
    (List.Forall₂ SameLetter name word ∨ List.Forall₂ SameLetter (name ++ ['a']) word)

/-- The forms in which a raw color is written. -/
inductive Form where
  | hex
  | rgb
  | hsl
  deriving DecidableEq

namespace Form

def Holds : Form → List Char → Prop
  | hex => IsHexCode
  | rgb => IsCall ['r', 'g', 'b']
  | hsl => IsCall ['h', 's', 'l']

/-- The test for a form. -/
def fits : Form → List Char → Bool
  | hex => isHexColor
  | rgb => isFunction ['r', 'g', 'b']
  | hsl => isFunction ['h', 's', 'l']

def color : Form → String → RawColor
  | hex => .hex
  | rgb => .rgb
  | hsl => .hsl

/-- What a text of a form may begin with. -/
def initials : Form → List Char
  | hex => ['#']
  | rgb => ['r', 'R']
  | hsl => ['h', 'H']

end Form

/-- Classification that tries some forms in order. -/
def classifyBy (order : List Form) (s : String) : Option RawColor :=
  let t := trimChars s.toList
  if t.isEmpty || contains t tokenReference.toList then none
  else (order.find? (·.fits t)).map (·.color (String.ofList t))

theorem classify?_eq_classifyBy (s : String) : classify? s = classifyBy [.hex, .rgb, .hsl] s := by
  rw [classify?, classifyChars, classifyBy]
  simp only [List.find?, Form.fits]
  cases isHexColor (trimChars s.toList) <;>
    cases isFunction ['r', 'g', 'b'] (trimChars s.toList) <;>
      cases isFunction ['h', 's', 'l'] (trimChars s.toList) <;> rfl

/-! ### The tests for the forms -/

theorem isHexColor_iff {t : List Char} : isHexColor t ↔ IsHexCode t := by
  unfold isHexColor
  split
  · rename_i digits
    rw [Bool.and_eq_true, List.contains_iff_mem, List.all_eq_true]
    constructor
    · intro h
      exact ⟨digits, rfl, h⟩
    · rintro ⟨digits', ht, h⟩
      obtain rfl := (List.cons.inj ht).2
      exact h
  · rename_i hhash
    constructor
    · intro h
      cases h
    · rintro ⟨digits, rfl, -⟩
      exact absurd rfl (hhash digits)

theorem isArguments_iff {t : List Char} :
    isArguments t ↔ ∃ arguments, t = '(' :: (arguments ++ [')']) ∧ ')' ∉ arguments := by
  unfold isArguments
  split
  · rename_i cs
    rw [Bool.and_eq_true, beq_iff_eq, Bool.not_eq_true', List.contains_eq_mem,
      decide_eq_false_iff_not]
    constructor
    · rintro ⟨hlast, hinner⟩
      obtain ⟨arguments, rfl⟩ := List.getLast?_eq_some_iff.mp hlast
      rw [List.dropLast_concat] at hinner
      exact ⟨arguments, rfl, hinner⟩
    · rintro ⟨arguments, ht, hinner⟩
      obtain rfl := (List.cons.inj ht).2
      rw [List.dropLast_concat]
      exact ⟨List.getLast?_concat, hinner⟩
  · rename_i hopen
    constructor
    · intro h
      cases h
    · rintro ⟨arguments, rfl, -⟩
      exact absurd rfl (hopen _)

/-- The letters of the names of color functions. -/
def letters : List Char := ['r', 'g', 'b', 'h', 's', 'l', 'a']

theorem isLetter_lt {letter c : Char} (hletter : letter ∈ letters) (h : isLetter letter c) :
    c.toNat < 384 := by
  rw [isLetter, Bool.or_eq_true, beq_iff_eq, Bool.and_eq_true, beq_iff_eq, beq_iff_eq] at h
  rcases h with hlower | ⟨-, rfl⟩
  · unfold Char.toLower at hlower
    split at hlower
    · rename_i hupper
      have hbound : c.toNat ≤ 90 := UInt32.le_iff_toNat_le.mp hupper.2
      omega
    · have hsmall : ∀ letter ∈ letters, letter.toNat < 384 :=
        List.all_iff_forall_prop.mp (by decide)
      rw [hlower]
      exact hsmall letter hletter
  · decide

theorem isLetter_iff {letter c : Char} (hletter : letter ∈ letters) :
    isLetter letter c ↔ SameLetter letter c := by
  constructor
  · intro h
    have hall : ∀ letter ∈ letters, ∀ n < 384, isLetter letter (Char.ofNat n) →
        fold letter.toNat = fold (Char.ofNat n).toNat :=
      List.all_iff_forall_prop.mp (by decide +kernel)
    have hone := hall letter hletter c.toNat (isLetter_lt hletter h)
    rw [Char.ofNat_toNat] at hone
    exact hone h
  · intro h
    have hall : ∀ letter ∈ letters, ∀ n ∈ orbit letter, isLetter letter (Char.ofNat n) :=
      List.all_iff_forall_prop.mp (by decide +kernel)
    exact h.of_orbit (P := fun c => isLetter letter c) (hall letter hletter)

/-- What is behind a name, or behind its last letter but for an `a`. -/
theorem isCall_nil {t : List Char} : IsCall [] t ↔ ∃ arguments, ')' ∉ arguments ∧
    (t = '(' :: (arguments ++ [')']) ∨
      ∃ c, SameLetter 'a' c ∧ t = c :: '(' :: (arguments ++ [')'])) := by
  constructor
  · rintro ⟨word, arguments, rfl, hinner, hword | hword⟩
    · obtain rfl := List.forall₂_nil_left_iff.mp hword
      exact ⟨arguments, hinner, .inl rfl⟩
    · obtain ⟨c, rest, hc, hrest, rfl⟩ := List.forall₂_cons_left_iff.mp hword
      obtain rfl := List.forall₂_nil_left_iff.mp hrest
      exact ⟨arguments, hinner, .inr ⟨c, hc, rfl⟩⟩
  · rintro ⟨arguments, hinner, rfl | ⟨c, hc, rfl⟩⟩
    · exact ⟨[], arguments, rfl, hinner, .inl .nil⟩
    · exact ⟨[c], arguments, rfl, hinner, .inr (.cons hc .nil)⟩

theorem isCall_cons {letter : Char} {name t : List Char} : IsCall (letter :: name) t ↔
    ∃ c cs, t = c :: cs ∧ SameLetter letter c ∧ IsCall name cs := by
  constructor
  · rintro ⟨word, arguments, rfl, hinner, hword | hword⟩
    · obtain ⟨c, rest, hc, hrest, rfl⟩ := List.forall₂_cons_left_iff.mp hword
      exact ⟨c, _, rfl, hc, rest, arguments, rfl, hinner, .inl hrest⟩
    · obtain ⟨c, rest, hc, hrest, rfl⟩ := List.forall₂_cons_left_iff.mp hword
      exact ⟨c, _, rfl, hc, rest, arguments, rfl, hinner, .inr hrest⟩
  · rintro ⟨c, cs, rfl, hc, word, arguments, rfl, hinner, hword⟩
    refine ⟨c :: word, arguments, rfl, hinner, ?_⟩
    exact hword.imp (.cons hc) (.cons hc)

/-- Behind the letters of a name, an `a` belongs to the name, for no arguments begin with one. -/
theorem isFunction_nil {t : List Char} : isFunction [] t ↔ IsCall [] t := by
  rw [isCall_nil]
  cases t with
  | nil => simp [isFunction]
  | cons c cs =>
    rw [isFunction]
    split
    · rename_i hletter
      rw [isArguments_iff]
      constructor
      · rintro ⟨arguments, rfl, hinner⟩
        exact ⟨arguments, hinner, .inr ⟨c, (isLetter_iff (by decide)).mp hletter, rfl⟩⟩
      · rintro ⟨arguments, hinner, hopen | ⟨d, -, hcs⟩⟩
        · obtain rfl := (List.cons.inj hopen).1
          exact absurd hletter (by decide)
        · exact ⟨arguments, (List.cons.inj hcs).2, hinner⟩
    · rename_i hletter
      rw [isArguments_iff]
      constructor
      · rintro ⟨arguments, hopen, hinner⟩
        exact ⟨arguments, hinner, .inl hopen⟩
      · rintro ⟨arguments, hinner, hopen | ⟨d, hd, hcs⟩⟩
        · exact ⟨arguments, hopen, hinner⟩
        · obtain rfl := (List.cons.inj hcs).1
          exact absurd ((isLetter_iff (by decide)).mpr hd) hletter

/-- The test goes through a name letter by letter. -/
theorem isFunction_iff {name t : List Char} (hname : ∀ letter ∈ name, letter ∈ letters) :
    isFunction name t ↔ IsCall name t := by
  induction name generalizing t with
  | nil => exact isFunction_nil
  | cons letter name ih =>
    obtain ⟨hletter, hname⟩ := List.forall_mem_cons.mp hname
    rw [isCall_cons]
    cases t with
    | nil => simp [isFunction]
    | cons c cs =>
      rw [isFunction, Bool.and_eq_true, isLetter_iff hletter, ih hname]
      constructor
      · rintro ⟨hc, hcs⟩
        exact ⟨c, cs, rfl, hc, hcs⟩
      · rintro ⟨d, ds, hds, hd, hcall⟩
        obtain ⟨rfl, rfl⟩ := List.cons.inj hds
        exact ⟨hd, hcall⟩

theorem Form.fits_iff {f : Form} {t : List Char} : f.fits t ↔ f.Holds t := by
  cases f with
  | hex => exact isHexColor_iff
  | rgb => exact isFunction_iff (List.all_iff_forall_prop.mp (by decide))
  | hsl => exact isFunction_iff (List.all_iff_forall_prop.mp (by decide))

/-- A call begins with the first letter of its name, in some case. -/
theorem exists_initial_of_isCall {letter : Char} {name initials t : List Char}
    (h : IsCall (letter :: name) t) (hall : ∀ n ∈ orbit letter, Char.ofNat n ∈ initials) :
    ∃ c ∈ initials, t.head? = some c := by
  obtain ⟨c, cs, rfl, hc, -⟩ := isCall_cons.mp h
  exact ⟨c, hc.of_orbit (P := (· ∈ initials)) hall, rfl⟩

theorem Form.exists_initial {f : Form} {t : List Char} (h : f.Holds t) :
    ∃ c ∈ f.initials, t.head? = some c := by
  cases f with
  | hex =>
    obtain ⟨digits, rfl, -⟩ := h
    exact ⟨'#', List.mem_singleton_self _, rfl⟩
  | rgb => exact exists_initial_of_isCall h (by decide +kernel)
  | hsl => exact exists_initial_of_isCall h (by decide +kernel)

/-- No text has two forms. -/
theorem Form.Holds.eq {f g : Form} {t : List Char} (hf : f.Holds t) (hg : g.Holds t) : f = g := by
  have hall : ∀ c ∈ f.initials, c ∈ g.initials → f = g := by
    cases f <;> cases g <;> simp [Form.initials]
  obtain ⟨c, hc, hhead⟩ := Form.exists_initial hf
  obtain ⟨d, hd, hhead'⟩ := Form.exists_initial hg
  obtain rfl := Option.some.inj (hhead.symm.trans hhead')
  exact hall c hc hd

/-! ### Classification -/

theorem classifyBy_perm {order order' : List Form} (h : order.Perm order') (s : String) :
    classifyBy order s = classifyBy order' s := by
  have hfind : order.find? (·.fits (trimChars s.toList)) =
      order'.find? (·.fits (trimChars s.toList)) := by
    refine List.find?_eq_find?_of_perm h fun f hf g hg => ?_
    exact Form.Holds.eq (Form.fits_iff.mp hf.2) (Form.fits_iff.mp hg.2)
  rw [classifyBy, classifyBy, hfind]

/-- The form that is found is the one that the text has. -/
theorem find?_fits_eq_some_iff {f : Form} {t : List Char} :
    [Form.hex, .rgb, .hsl].find? (·.fits t) = some f ↔ f.Holds t := by
  have hmem : f ∈ [Form.hex, .rgb, .hsl] := by cases f <;> decide
  rw [← Form.fits_iff]
  exact find?_eq_some_iff_of_exclusive hmem fun g hf hg =>
    Form.Holds.eq (Form.fits_iff.mp hf) (Form.fits_iff.mp hg)

theorem classify?_eq_some_iff {s : String} {color : RawColor} : classify? s = some color ↔
    trimChars s.toList ≠ [] ∧ ¬tokenReference.toList <:+: trimChars s.toList ∧
      ∃ f : Form, f.Holds (trimChars s.toList) ∧ color = f.color (trim s) := by
  rw [classify?_eq_classifyBy, classifyBy]
  split
  · rename_i hexempt
    rw [Bool.or_eq_true, List.isEmpty_iff, contains_iff] at hexempt
    constructor
    · intro h
      cases h
    · rintro ⟨hsome, hplain, -⟩
      exact absurd hexempt (not_or.mpr ⟨hsome, hplain⟩)
  · rename_i hexempt
    rw [Bool.or_eq_true, List.isEmpty_iff, contains_iff, not_or] at hexempt
    rw [Option.map_eq_some_iff]
    constructor
    · rintro ⟨f, hfind, rfl⟩
      exact ⟨hexempt.1, hexempt.2, f, find?_fits_eq_some_iff.mp hfind, rfl⟩
    · rintro ⟨-, -, f, hf, rfl⟩
      exact ⟨f, find?_fits_eq_some_iff.mpr hf, rfl⟩

theorem literal_color (f : Form) (s : String) : (f.color s).literal = s := by cases f <;> rfl

theorem literal_of_classify? {s : String} {color : RawColor} (h : classify? s = some color) :
    color.literal = trim s := by
  obtain ⟨-, -, f, -, rfl⟩ := classify?_eq_some_iff.mp h
  exact literal_color f _

theorem classify?_congr {s s' : String} (h : trimChars s.toList = trimChars s'.toList) :
    classify? s = classify? s' := by
  rw [classify?, classify?, classifyChars, classifyChars, h]

/-- Which raw color a text is. -/
structure Classified (s : String) (found : Option RawColor) : Prop where
  eq_some_iff : ∀ color : RawColor, found = some color ↔
    trimChars s.toList ≠ [] ∧ ¬tokenReference.toList <:+: trimChars s.toList ∧
      ∃ f : Form, f.Holds (trimChars s.toList) ∧ color = f.color (trim s)
  unique : ∀ (t : List Char) (f g : Form), f.Holds t → g.Holds t → f = g
  anyOrder : ∀ order : List Form, order.Perm [.hex, .rgb, .hsl] → classifyBy order s = found
  blanks : ∀ before after : String, (∀ c ∈ before.toList, isBlank c) →
    (∀ c ∈ after.toList, isBlank c) → classify? (before ++ (s ++ after)) = found
  again : ∀ color : RawColor, found = some color →
    color.literal = trim s ∧ classify? color.literal = some color

/-- A text is a raw color of one of three forms if it has that form without the blanks around it and
refers to no token. No text has two of the forms, so they are tried in any order. Blanks around the
text change nothing, and the literal of the color is read as the same color. -/
theorem classify_exact (s : String) : Classified s (classify? s) := by
  constructor
  case eq_some_iff => exact fun color => classify?_eq_some_iff
  case unique => exact fun t f g => Form.Holds.eq
  case anyOrder =>
    intro order horder
    rw [classify?_eq_classifyBy, classifyBy_perm horder]
  case blanks =>
    intro before after hbefore hafter
    refine classify?_congr ?_
    rw [String.toList_append, String.toList_append, trimChars_blanks _ hbefore hafter]
  case again =>
    intro color h
    have hliteral := literal_of_classify? h
    refine ⟨hliteral, (classify?_congr ?_).trans h⟩
    rw [hliteral, trim, String.toList_ofList, trimChars_trimChars]

/-- A long `s` is an `s`, and arguments may go over lines. -/
example : classify? "\u3000HſLa(210\n40%)\t" = some (.hsl "HſLa(210\n40%)") := by decide +kernel

end RawColor
end TokenLint
