import Mathlib.Data.List.Pairwise
import TokenLint.Proofs.Text.Cut

/-!
# Searching a text

From the front of a text a pattern may take this or that many characters, and there is an order in
which it tries them. A search takes what is tried first where something can be taken, from left to
right, and goes on behind it. If no match begins inside another one, nothing that begins anywhere is
passed over.
-/
namespace TokenLint.Text

/-- How many characters a pattern may take from the front of a text, in the order in which it tries
them. -/
abbrev Ways := List Char → List Nat

/-- A part of a text, and how many bytes are before it. -/
structure Occurrence where
  place : Nat
  text : List Char
  deriving DecidableEq

/-- What a search finds from a place on, of which some characters belong to the match before. -/
def searchFrom (ways : Ways) : Nat → Nat → List Char → List Occurrence
  | _, _, [] => []
  | skipped + 1, place, c :: cs => searchFrom ways skipped (place + c.utf8Size) cs
  | 0, place, c :: cs =>
    match (ways (c :: cs)).head? with
    | some n => ⟨place, (c :: cs).take n⟩ :: searchFrom ways (n - 1) (place + c.utf8Size) cs
    | none => searchFrom ways 0 (place + c.utf8Size) cs

def search (ways : Ways) (cs : List Char) : List Occurrence := searchFrom ways 0 0 cs

/-- What begins at each place, whatever was found before. -/
def beginningsFrom (ways : Ways) : Nat → List Char → List Occurrence
  | _, [] => []
  | place, c :: cs =>
    match (ways (c :: cs)).head? with
    | some n => ⟨place, (c :: cs).take n⟩ :: beginningsFrom ways (place + c.utf8Size) cs
    | none => beginningsFrom ways (place + c.utf8Size) cs

/-- No match begins inside another one. -/
def Solitary (ways : Ways) : Prop :=
  ∀ cs n, (ways cs).head? = some n → ∀ k, 0 < k → k < n → ways (cs.drop k) = []

variable {ways : Ways} {skipped place : Nat} {cs : List Char}

theorem place_le_of_mem_searchFrom {m : Occurrence} (hm : m ∈ searchFrom ways skipped place cs) :
    place ≤ m.place := by
  fun_induction searchFrom ways skipped place cs with
  | case1 => cases hm
  | case2 place skipped c cs ih => exact Nat.le_trans (Nat.le_add_right _ _) (ih hm)
  | case3 place c cs n _ ih =>
    rcases List.mem_cons.mp hm with rfl | hm
    · exact Nat.le_refl _
    · exact Nat.le_trans (Nat.le_add_right _ _) (ih hm)
  | case4 place c cs _ ih => exact Nat.le_trans (Nat.le_add_right _ _) (ih hm)

/-- A search finds its matches from left to right, and one at a place. -/
theorem pairwise_searchFrom (ways : Ways) (skipped place : Nat) (cs : List Char) :
    (searchFrom ways skipped place cs).Pairwise (·.place < ·.place) := by
  fun_induction searchFrom ways skipped place cs with
  | case1 => exact .nil
  | case2 place skipped c cs ih => exact ih
  | case3 place c cs n _ ih =>
    refine List.pairwise_cons.mpr ⟨fun m hm => ?_, ih⟩
    have hlater := place_le_of_mem_searchFrom hm
    have hsize := c.utf8Size_pos
    dsimp only
    omega
  | case4 place c cs _ ih => exact ih

/-- What belongs to a match is passed over. -/
theorem searchFrom_append (ways : Ways) (place : Nat) (taken cs : List Char) :
    searchFrom ways taken.length place (taken ++ cs) =
      searchFrom ways 0 (place + size taken) cs := by
  induction taken generalizing place with
  | nil => rfl
  | cons c taken ih =>
    rw [List.length_cons, List.cons_append, searchFrom, ih, size_cons, Nat.add_assoc]

/-- What is skipped holds no beginning of its own. -/
theorem searchFrom_eq_beginningsFrom (h : Solitary ways)
    (hskipped : ∀ k < skipped, ways (cs.drop k) = []) :
    searchFrom ways skipped place cs = beginningsFrom ways place cs := by
  induction cs generalizing skipped place with
  | nil => rfl
  | cons c cs ih =>
    cases skipped with
    | succ skipped =>
      have hnone : ways (c :: cs) = [] := hskipped 0 (Nat.succ_pos _)
      rw [searchFrom, beginningsFrom, hnone]
      exact ih fun k hk => hskipped (k + 1) (Nat.succ_lt_succ hk)
    | zero =>
      rw [searchFrom, beginningsFrom]
      cases hways : (ways (c :: cs)).head? with
      | none => exact ih fun k hk => absurd hk (Nat.not_lt_zero k)
      | some n =>
        dsimp only
        rw [ih fun k hk => h (c :: cs) n hways (k + 1) (Nat.succ_pos k) (by omega)]

theorem search_eq_beginningsFrom (h : Solitary ways) (cs : List Char) :
    search ways cs = beginningsFrom ways 0 cs :=
  searchFrom_eq_beginningsFrom h fun k hk => absurd hk (Nat.not_lt_zero k)

theorem mem_beginningsFrom {m : Occurrence} : m ∈ beginningsFrom ways place cs ↔
    ∃ front back n, cs = front ++ back ∧ back ≠ [] ∧ m.place = place + size front ∧
      (ways back).head? = some n ∧ m.text = back.take n := by
  induction cs generalizing place with
  | nil =>
    constructor
    · intro h
      cases h
    · rintro ⟨front, back, n, hcs, hne, -⟩
      exact absurd (List.append_eq_nil_iff.mp hcs.symm).2 hne
  | cons c cs ih =>
    -- a match begins with the first character or behind it
    have hsplit : (∃ front back n, c :: cs = front ++ back ∧ back ≠ [] ∧
          m.place = place + size front ∧ (ways back).head? = some n ∧ m.text = back.take n) ↔
        (m.place = place ∧ ∃ n, (ways (c :: cs)).head? = some n ∧ m.text = (c :: cs).take n) ∨
          m ∈ beginningsFrom ways (place + c.utf8Size) cs := by
      rw [ih]
      constructor
      · rintro ⟨front, back, n, hcs, hne, hplace, hways, htext⟩
        cases front with
        | nil =>
          obtain rfl : back = c :: cs := hcs.symm
          exact .inl ⟨hplace, n, hways, htext⟩
        | cons d front =>
          obtain ⟨rfl, rfl⟩ := List.cons.inj hcs
          rw [size_cons, ← Nat.add_assoc] at hplace
          exact .inr ⟨front, back, n, rfl, hne, hplace, hways, htext⟩
      · rintro (⟨hplace, n, hways, htext⟩ | ⟨front, back, n, rfl, hne, hplace, hways, htext⟩)
        · exact ⟨[], c :: cs, n, rfl, List.cons_ne_nil c cs, hplace, hways, htext⟩
        · rw [Nat.add_assoc, ← size_cons] at hplace
          exact ⟨c :: front, back, n, rfl, hne, hplace, hways, htext⟩
    rw [hsplit, beginningsFrom]
    cases hways : (ways (c :: cs)).head? with
    | none => simp
    | some n =>
      rw [List.mem_cons]
      refine or_congr_left ⟨?_, ?_⟩
      · rintro rfl
        exact ⟨rfl, n, rfl, rfl⟩
      · rintro ⟨hplace, k, hk, htext⟩
        obtain rfl := Option.some.inj hk
        cases m
        exact congrArg₂ Occurrence.mk hplace htext

end TokenLint.Text
