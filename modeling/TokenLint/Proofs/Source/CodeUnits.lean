import TokenLint.Proofs.Source.Spelling

/-!
# What the body of a string literal stands for

In the language a string is a row of code units. A character that may stand in a literal as it is
stands for its own units, and an escape for fewer than it is written with. So a body stands for the
units that it is written with if and only if nothing in it is escaped.
-/
namespace TokenLint.Source.Literal

/-- The code units of a code point, two of them above the basic plane. -/
def unitsOf (n : Nat) : List Nat :=
  if n < 0x10000 then [n] else [0xD800 + (n - 0x10000) / 0x400, 0xDC00 + (n - 0x10000) % 0x400]

/-- The code units of a text. -/
def units (cs : List Char) : List Nat := cs.flatMap fun c => unitsOf c.toNat

/-- The escapes in front of a rest, with the units that they stand for. Those by octal numbers are
not among them, since modules may not have any. -/
inductive Escape (rest : List Char) : List Char → List Nat → Prop
  | plain {c : Char} (ordinary : c ∉ special) (symbol : c.isDigit = false) :
      Escape rest ['\\', c] (unitsOf c.toNat)
  | named {letter c : Char} (name : (letter, c) ∈ named) :
      Escape rest ['\\', letter] (unitsOf c.toNat)
  | null (ended : ∀ d ∈ rest.head?, d.isDigit = false) : Escape rest ['\\', '0'] [0]
  | byte {ds : List Char} {n : Nat} (two : ds.length = 2) (number : Numeral ds n) :
      Escape rest ('\\' :: 'x' :: ds) [n]
  /-- Any unit, the halves of pairs with it. -/
  | unit {ds : List Char} {n : Nat} (four : ds.length = 4) (number : Numeral ds n) :
      Escape rest ('\\' :: 'u' :: ds) [n]
  | braced {ds : List Char} {n : Nat} (some : ds ≠ []) (number : Numeral ds n)
      (point : n ≤ 0x10FFFF) : Escape rest ('\\' :: 'u' :: '\x7b' :: (ds ++ ['\x7d'])) (unitsOf n)
  | continued {part : List Char} (line : Continues rest part) : Escape rest part []

/-- The bodies that a literal between two marks `q` may have, with the units that they stand for. -/
inductive StringBody (q : Char) : List Char → List Nat → Prop
  | done : StringBody q [] []
  | char {c : Char} {rest : List Char} {us : List Nat} (ordinary : c ∉ [q, '\\', '\n', '\r'])
      (more : StringBody q rest us) : StringBody q (c :: rest) (unitsOf c.toNat ++ us)
  | escape {part rest : List Char} {us vs : List Nat} (form : Escape rest part us)
      (more : StringBody q rest vs) : StringBody q (part ++ rest) (us ++ vs)

variable {q : Char} {cs raw rest part : List Char} {us : List Nat}

theorem units_cons (c : Char) (cs : List Char) : units (c :: cs) = unitsOf c.toNat ++ units cs :=
  List.flatMap_cons

theorem units_append (as bs : List Char) : units (as ++ bs) = units as ++ units bs :=
  List.flatMap_append

theorem length_unitsOf (n : Nat) : 0 < (unitsOf n).length ∧ (unitsOf n).length ≤ 2 := by
  rw [unitsOf]
  split <;> simp

theorem length_le_units (cs : List Char) : cs.length ≤ (units cs).length := by
  induction cs with
  | nil => exact Nat.zero_le _
  | cons c cs ih =>
    have hone := (length_unitsOf c.toNat).1
    rw [units_cons, List.length_append, List.length_cons]
    omega

/-- An escape stands for fewer units than it is written with. -/
theorem Escape.length_lt (h : Escape rest part us) : us.length < (units part).length := by
  cases h with
  | @plain c =>
    have hslash : (unitsOf '\\'.toNat).length = 1 := by decide
    rw [units_cons, units_cons, List.length_append, List.length_append, hslash]
    omega
  | @named letter c name =>
    have hone : ∀ p ∈ Literal.named, (unitsOf p.2.toNat).length = 1 := by decide
    have htwo := length_le_units ['\\', letter]
    rw [hone _ name]
    exact htwo
  | null => exact length_le_units ['\\', '0']
  | @byte ds =>
    refine Nat.lt_of_lt_of_le ?_ (length_le_units ('\\' :: 'x' :: ds))
    simp only [List.length_cons, List.length_nil]
    omega
  | @unit ds =>
    refine Nat.lt_of_lt_of_le ?_ (length_le_units ('\\' :: 'u' :: ds))
    simp only [List.length_cons, List.length_nil]
    omega
  | @braced ds n =>
    refine Nat.lt_of_le_of_lt (length_unitsOf n).2
      (Nat.lt_of_lt_of_le ?_ (length_le_units ('\\' :: 'u' :: '\x7b' :: (ds ++ ['\x7d']))))
    simp only [List.length_cons]
    omega
  | continued line =>
    refine Nat.lt_of_lt_of_le ?_ (length_le_units part)
    cases line <;> exact Nat.succ_pos _

/-- A body never stands for more than it is written with, and for as much if nothing is escaped. -/
theorem StringBody.length_le (h : StringBody q raw us) : us.length ≤ (units raw).length ∧
    (us.length = (units raw).length → ∀ c ∈ raw, c ∉ [q, '\\', '\n', '\r']) := by
  induction h with
  | done => exact ⟨Nat.le_refl _, by simp⟩
  | char ordinary more ih =>
    obtain ⟨hle, hall⟩ := ih
    rw [units_cons, List.length_append, List.length_append]
    exact ⟨by omega, fun heq => List.forall_mem_cons.mpr ⟨ordinary, hall (by omega)⟩⟩
  | escape form more ih =>
    have hlt := form.length_lt
    rw [units_append, List.length_append, List.length_append]
    exact ⟨by omega, fun heq => by omega⟩

theorem stringBody_of_ordinary (h : ∀ c ∈ raw, c ∉ [q, '\\', '\n', '\r']) :
    StringBody q raw (units raw) := by
  induction raw with
  | nil => exact .done
  | cons c raw ih =>
    obtain ⟨hc, hraw⟩ := List.forall_mem_cons.mp h
    rw [units_cons]
    exact .char hc (ih hraw)

/-- A body stands for its own characters if there is no escape in it and nothing that would have to
be escaped. -/
theorem stringBody_units_iff :
    StringBody q raw (units raw) ↔ ∀ c ∈ raw, c ∉ [q, '\\', '\n', '\r'] :=
  ⟨fun h => h.length_le.2 rfl, stringBody_of_ordinary⟩

/-- Where no backslash continues it, a line may not break in a body. -/
theorem not_stringBody_of_break (hraw : '\\' ∉ raw) {b : Char} (hb : b ∈ ['\n', '\r'])
    (hmem : b ∈ raw) (us : List Nat) : ¬StringBody q raw us := by
  intro h
  induction h with
  | done => cases hmem
  | @char c rest us ordinary more ih =>
    obtain ⟨hc, hrest⟩ := not_or.mp (List.mem_cons.not.mp hraw)
    rcases List.mem_cons.mp hmem with rfl | hmem
    · refine ordinary (List.mem_cons_of_mem _ (List.mem_cons_of_mem _ hb))
    · exact ih hrest hmem
  | escape form more ih =>
    refine hraw (List.mem_append_left _ ?_)
    cases form with
    | continued line => cases line <;> exact List.mem_cons_self
    | _ => exact List.mem_cons_self

end TokenLint.Source.Literal
