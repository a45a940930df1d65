import Mathlib.Data.List.Basic
import TokenLint.Text

/-!
# Cutting a text at byte offsets

An offset is a boundary when some of the characters at the front take just so many bytes.
`take?` and `drop?` succeed at boundaries alone, and return the two sides of the cut. A range of a
text is two boundaries in order; two ranges may be apart, or one within the other.
-/
namespace TokenLint

/-- Of two ranges one ends before the other begins. They may touch. -/
def Span.Apart (a b : Span) : Prop := a.stop ≤ b.start ∨ b.stop ≤ a.start

def Span.Within (a b : Span) : Prop := b.start ≤ a.start ∧ a.stop ≤ b.stop

theorem Span.Apart.symm {a b : Span} (h : a.Apart b) : b.Apart a := Or.symm h

theorem Span.Within.refl (a : Span) : a.Within a := ⟨Nat.le_refl _, Nat.le_refl _⟩

theorem Span.Within.trans {a b c : Span} (hab : a.Within b) (hbc : b.Within c) : a.Within c :=
  ⟨Nat.le_trans hbc.1 hab.1, Nat.le_trans hab.2 hbc.2⟩

/-- A range that is not empty is not apart from what reaches over it. -/
theorem Span.Within.not_apart {a b : Span} (h : a.Within b) (hne : a.start < a.stop) :
    ¬b.Apart a := by
  unfold Within at h
  unfold Apart
  omega

theorem Span.Apart.mono {a b c d : Span} (h : b.Apart d) (ha : a.Within b) (hc : c.Within d) :
    a.Apart c := by
  unfold Span.Apart Span.Within at *
  omega

end TokenLint

namespace TokenLint.Text

@[simp] theorem size_nil : size [] = 0 := rfl

@[simp] theorem size_cons (c : Char) (cs : List Char) :
    size (c :: cs) = c.utf8Size + size cs := rfl

@[simp] theorem size_append (as bs : List Char) : size (as ++ bs) = size as + size bs := by
  induction as with
  | nil => simp
  | cons c cs ih => simp [ih, Nat.add_assoc]

/-- Only the empty text takes no bytes. -/
theorem eq_nil_of_size {cs : List Char} (h : size cs = 0) : cs = [] := by
  cases cs with
  | nil => rfl
  | cons c cs =>
    have hc := c.utf8Size_pos
    rw [size_cons] at h
    omega

/-- Where a text is cut is settled by the bytes in front of the cut. -/
theorem append_inj_of_size {as bs cs ds : List Char} (h : as ++ bs = cs ++ ds)
    (hs : size as = size cs) : as = cs ∧ bs = ds := by
  rcases List.append_eq_append_iff.mp h with ⟨mid, rfl, rfl⟩ | ⟨mid, rfl, rfl⟩ <;>
  · have hmid : mid = [] := eq_nil_of_size (by rw [size_append] at hs; omega)
    subst hmid
    simp

/-- A cut behind the first character is one of what follows it. -/
theorem drop?_cons_add (c : Char) (cs : List Char) (n : Nat) :
    drop? (c :: cs) (c.utf8Size + n) = drop? cs n := by
  have hc := c.utf8Size_pos
  obtain ⟨k, hk⟩ := Nat.exists_eq_succ_of_ne_zero (show c.utf8Size + n ≠ 0 by omega)
  have hrest : k + 1 - c.utf8Size = n := by omega
  rw [hk, drop?, if_pos (by omega), hrest]

theorem drop?_append_right (front rest : List Char) (n : Nat) :
    drop? (front ++ rest) (size front + n) = drop? rest n := by
  induction front with
  | nil => rw [List.nil_append, size_nil, Nat.zero_add]
  | cons c cs ih => rw [List.cons_append, size_cons, Nat.add_assoc, drop?_cons_add, ih]

theorem drop?_size (as bs : List Char) : drop? (as ++ bs) (size as) = some bs := by
  have h := drop?_append_right as bs 0
  rwa [Nat.add_zero, drop?] at h

theorem drop?_eq_some {cs rest : List Char} {n : Nat} :
    drop? cs n = some rest ↔ ∃ front, cs = front ++ rest ∧ size front = n := by
  constructor
  · intro h
    fun_induction drop? cs n with
    | case1 cs => exact ⟨[], by simpa using h, rfl⟩
    | case2 => simp at h
    | case3 c cs n hc ih =>
      obtain ⟨front, rfl, hs⟩ := ih h
      exact ⟨c :: front, rfl, by rw [size_cons]; omega⟩
    | case4 => simp at h
  · rintro ⟨front, rfl, rfl⟩
    exact drop?_size front rest

theorem take?_cons_add (c : Char) (cs : List Char) (n : Nat) :
    take? (c :: cs) (c.utf8Size + n) = (take? cs n).map (c :: ·) := by
  have hc := c.utf8Size_pos
  obtain ⟨k, hk⟩ := Nat.exists_eq_succ_of_ne_zero (show c.utf8Size + n ≠ 0 by omega)
  have hrest : k + 1 - c.utf8Size = n := by omega
  rw [hk, take?, if_pos (by omega), hrest]

theorem take?_append_right (front rest : List Char) (n : Nat) :
    take? (front ++ rest) (size front + n) = (take? rest n).map (front ++ ·) := by
  induction front with
  | nil => simp
  | cons c cs ih =>
    rw [List.cons_append, size_cons, Nat.add_assoc, take?_cons_add, ih, Option.map_map]
    rfl

theorem take?_size (as bs : List Char) : take? (as ++ bs) (size as) = some as := by
  have h := take?_append_right as bs 0
  rwa [Nat.add_zero, take?, Option.map_some, List.append_nil] at h

theorem take?_eq_some {cs front : List Char} {n : Nat} :
    take? cs n = some front ↔ ∃ rest, cs = front ++ rest ∧ size front = n := by
  constructor
  · intro h
    fun_induction take? cs n generalizing front with
    | case1 cs => exact ⟨cs, by simp_all, by simp_all⟩
    | case2 => simp at h
    | case3 c cs n hc ih =>
      obtain ⟨inner, hi, rfl⟩ := Option.map_eq_some_iff.mp h
      obtain ⟨rest, rfl, hs⟩ := ih hi
      exact ⟨rest, rfl, by rw [size_cons]; omega⟩
    | case4 => simp at h
  · rintro ⟨rest, rfl, rfl⟩
    exact take?_size front rest

/-- An offset at which no character is cut. -/
def IsBoundary (cs : List Char) (n : Nat) : Prop :=
  ∃ front rest, cs = front ++ rest ∧ size front = n

theorem isBoundary_iff_drop? {cs : List Char} {n : Nat} :
    IsBoundary cs n ↔ (drop? cs n).isSome := by
  rw [Option.isSome_iff_exists]
  constructor
  · rintro ⟨front, rest, rfl, rfl⟩
    exact ⟨rest, drop?_size front rest⟩
  · rintro ⟨rest, h⟩
    obtain ⟨front, hcs, hs⟩ := drop?_eq_some.mp h
    exact ⟨front, rest, hcs, hs⟩

instance (cs : List Char) (n : Nat) : Decidable (IsBoundary cs n) :=
  decidable_of_iff _ isBoundary_iff_drop?.symm

theorem isBoundary_zero (cs : List Char) : IsBoundary cs 0 := ⟨[], cs, rfl, rfl⟩

/-- Behind a part that is cut off, boundaries are those of the rest. -/
theorem isBoundary_append {done cs : List Char} {n : Nat} :
    IsBoundary (done ++ cs) (size done + n) ↔ IsBoundary cs n := by
  constructor
  · rintro ⟨front, rest, hcut, hs⟩
    rcases List.append_eq_append_iff.mp hcut with ⟨mid, rfl, rfl⟩ | ⟨mid, rfl, rfl⟩
    · exact ⟨mid, rest, rfl, by rw [size_append] at hs; omega⟩
    · have hmid : mid = [] := eq_nil_of_size (by rw [size_append] at hs; omega)
      subst hmid
      refine ⟨[], cs, rfl, ?_⟩
      rw [size_append, size_nil] at hs
      rw [size_nil]
      omega
  · rintro ⟨front, rest, rfl, rfl⟩
    exact ⟨done ++ front, rest, (List.append_assoc done front rest).symm, size_append done front⟩

/-- A range of whole characters of a text. -/
def IsRange (cs : List Char) (span : Span) : Prop :=
  span.start ≤ span.stop ∧ IsBoundary cs span.start ∧ IsBoundary cs span.stop

instance (cs : List Char) (span : Span) : Decidable (IsRange cs span) :=
  inferInstanceAs (Decidable (_ ∧ _ ∧ _))

/-- Where no character is cut there is an empty range. -/
theorem IsBoundary.isRange {cs : List Char} {n : Nat} (h : IsBoundary cs n) :
    IsRange cs ⟨n, n⟩ :=
  ⟨Nat.le_refl n, h, h⟩

/-! ### Cuts in the first of two parts -/

theorem drop?_append_left {front : List Char} (rest : List Char) {n : Nat} (h : n ≤ size front) :
    drop? (front ++ rest) n = (drop? front n).map (· ++ rest) := by
  induction front generalizing n with
  | nil =>
    obtain rfl : n = 0 := by simpa using h
    cases rest <;> rfl
  | cons c cs ih =>
    cases n with
    | zero => rfl
    | succ n =>
      rw [List.cons_append, drop?, drop?]
      split
      · exact ih (by rw [size_cons] at h; omega)
      · rfl

theorem take?_append_left {front : List Char} (rest : List Char) {n : Nat} (h : n ≤ size front) :
    take? (front ++ rest) n = take? front n := by
  induction front generalizing n with
  | nil =>
    obtain rfl : n = 0 := by simpa using h
    cases rest <;> rfl
  | cons c cs ih =>
    cases n with
    | zero => rfl
    | succ n =>
      rw [List.cons_append, take?, take?]
      split
      · rw [ih (by rw [size_cons] at h; omega)]
      · rfl

end TokenLint.Text
