import Mathlib.Data.List.Basic
import TokenLint.Proofs.Source.Decode
import TokenLint.Proofs.Text.HexRun

/-!
# Spellings of a text in a literal

A text is written character by character: each as itself, behind a backslash, by a name or by a
number, and lines may be continued before and behind each. Decoding reads the text back from any of
its spellings, whichever forms come next to each other.
-/
namespace TokenLint.Source.Literal

/-! ### Numbers -/

/-- The digits of base sixteen by their value, the letters in either case. -/
def HexDigit (value : Nat) (c : Char) : Prop :=
  "0123456789abcdef".toList[value]? = some c ∨ "0123456789ABCDEF".toList[value]? = some c

instance (value : Nat) (c : Char) : Decidable (HexDigit value c) :=
  inferInstanceAs (Decidable (_ ∨ _))

/-- Digits that write a number in base sixteen, with any zeros in front. -/
inductive Numeral : List Char → Nat → Prop
  | none : Numeral [] 0
  | digit {ds : List Char} {c : Char} {n value : Nat} (front : Numeral ds n)
      (last : HexDigit value c) : Numeral (ds ++ [c]) (16 * n + value)

theorem hexDigit_iff {value : Nat} {c : Char} :
    HexDigit value c ↔ Text.isHex c ∧ hexValue c = value := by
  constructor
  · have hlower : ∀ p ∈ "0123456789abcdef".toList.zipIdx, Text.isHex p.1 ∧ hexValue p.1 = p.2 := by
      decide
    have hupper : ∀ p ∈ "0123456789ABCDEF".toList.zipIdx, Text.isHex p.1 ∧ hexValue p.1 = p.2 := by
      decide
    rintro (h | h)
    · exact hlower (c, value) (List.mem_zipIdx_iff_getElem?.mpr h)
    · exact hupper (c, value) (List.mem_zipIdx_iff_getElem?.mpr h)
  · rintro ⟨hc, rfl⟩
    exact Text.forall_isHex (P := fun c => HexDigit (hexValue c) c) (by decide +kernel) hc

theorem hexNumber_concat (ds : List Char) (c : Char) :
    hexNumber (ds ++ [c]) = 16 * hexNumber ds + hexValue c := by
  rw [hexNumber, List.foldl_append]
  rfl

theorem numeral_iff {ds : List Char} {n : Nat} :
    Numeral ds n ↔ ds.all Text.isHex ∧ hexNumber ds = n := by
  constructor
  · intro h
    induction h with
    | none => exact ⟨rfl, rfl⟩
    | digit front last ih =>
      obtain ⟨hds, rfl⟩ := ih
      obtain ⟨hc, rfl⟩ := hexDigit_iff.mp last
      exact ⟨by simp [hds, hc], hexNumber_concat _ _⟩
  · rintro ⟨hds, rfl⟩
    induction ds using List.reverseRecOn with
    | nil => exact .none
    | append_singleton ds c ih =>
      rw [List.all_append, Bool.and_eq_true, List.all_cons, List.all_nil, Bool.and_true] at hds
      rw [hexNumber_concat]
      exact .digit (ih hds.1) (hexDigit_iff.mpr ⟨hds.2, rfl⟩)

/-! ### Forms -/

/-- Characters to which a backslash in front gives another meaning. -/
def special : List Char :=
  ['n', 't', 'r', 'b', 'f', 'v', '0', 'x', 'u', '\n', '\r', '\u2028', '\u2029']

/-- Escapes by a letter, and the characters that they stand for. -/
def named : List (Char × Char) :=
  [('n', '\n'), ('t', '\t'), ('r', '\r'), ('b', '\x08'), ('f', '\x0c'), ('v', '\x0b')]

/-- The ways to write a character in front of a rest. -/
inductive Form (rest : List Char) : Char → List Char → Prop
  | plain {c : Char} (ordinary : c ≠ '\\') : Form rest c [c]
  | escaped {c : Char} (ordinary : c ∉ special) : Form rest c ['\\', c]
  | named {letter c : Char} (name : (letter, c) ∈ named) : Form rest c ['\\', letter]
  | null (ended : ∀ d ∈ rest.head?, d.isDigit = false) : Form rest '\x00' ['\\', '0']
  /-- Two digits, so for characters below 256. -/
  | byte {c : Char} {ds : List Char} (two : ds.length = 2) (number : Numeral ds c.toNat) :
      Form rest c ('\\' :: 'x' :: ds)
  /-- Four digits, so for characters of the basic plane. -/
  | unit {c : Char} {ds : List Char} (four : ds.length = 4) (number : Numeral ds c.toNat) :
      Form rest c ('\\' :: 'u' :: ds)
  /-- Two units, for characters above the basic plane. -/
  | pair {c : Char} {high low : List Char} (above : 0x10000 ≤ c.toNat)
      (fourHigh : high.length = 4)
      (numberHigh : Numeral high (0xD800 + (c.toNat - 0x10000) / 0x400))
      (fourLow : low.length = 4)
      (numberLow : Numeral low (0xDC00 + (c.toNat - 0x10000) % 0x400)) :
      Form rest c ('\\' :: 'u' :: (high ++ '\\' :: 'u' :: low))
  | braced {c : Char} {ds : List Char} (some : ds ≠ []) (number : Numeral ds c.toNat) :
      Form rest c ('\\' :: 'u' :: '\x7b' :: (ds ++ ['\x7d']))

/-- The ways to continue a line in front of a rest: they stand for nothing. -/
inductive Continues (rest : List Char) : List Char → Prop
  | lineFeed : Continues rest ['\\', '\n']
  | both : Continues rest ['\\', '\r', '\n']
  | carriageReturn (alone : ∀ d ∈ rest.head?, d ≠ '\n') : Continues rest ['\\', '\r']
  | lineSeparator : Continues rest ['\\', '\u2028']
  | paragraphSeparator : Continues rest ['\\', '\u2029']

/-- The spellings of a text. -/
inductive Spells : List Char → List Char → Prop
  | done : Spells [] []
  | char {c : Char} {cs part rest : List Char} (form : Form rest c part) (more : Spells cs rest) :
      Spells (c :: cs) (part ++ rest)
  | continued {cs part rest : List Char} (line : Continues rest part) (more : Spells cs rest) :
      Spells cs (part ++ rest)

/-! ### Reading them back -/

variable {c : Char} {ds rest : List Char} {n count : Nat}

theorem digits?_append (h : Numeral ds n) (hlength : ds.length = count) (rest : List Char) :
    digits? count (ds ++ rest) = some (n, rest) := by
  obtain ⟨hds, rfl⟩ := numeral_iff.mp h
  subst hlength
  simp [digits?, hds]

theorem char?_toNat (c : Char) : char? c.toNat = some c := by
  have hvalid : c.toNat.isValidChar := c.valid
  rw [char?, dif_pos hvalid]
  rfl

/-- What begins with digits is not taken for a number in braces. -/
theorem ne_brace_of_numeral (h : Numeral ds n) (hlength : ds.length = 4) (rest cs : List Char) :
    ds ++ rest ≠ '\x7b' :: cs := by
  intro hcs
  obtain ⟨hds, -⟩ := numeral_iff.mp h
  obtain ⟨d, ds', rfl⟩ := List.exists_cons_of_length_pos (by omega : 0 < ds.length)
  obtain ⟨rfl, -⟩ := List.cons.inj hcs
  exact absurd (List.all_eq_true.mp hds _ List.mem_cons_self) (by decide)

theorem unicode?_unit (hlength : ds.length = 4) (h : Numeral ds c.toNat) (rest : List Char) :
    unicode? (ds ++ rest) = some (c, rest) := by
  have hvalid : c.toNat < 0xD800 ∨ 0xDFFF < c.toNat ∧ c.toNat < 0x110000 := c.valid
  rw [unicode?.eq_2 _ (ne_brace_of_numeral h hlength rest), digits?_append h hlength rest]
  dsimp only
  -- No character is a surrogate, so no second half is looked for.
  rw [if_neg, char?_toNat, Option.getD_some]
  simp only [Bool.and_eq_true, decide_eq_true_eq]
  omega

theorem unicode?_pair {high low : List Char} (above : 0x10000 ≤ c.toNat)
    (fourHigh : high.length = 4) (numberHigh : Numeral high (0xD800 + (c.toNat - 0x10000) / 0x400))
    (fourLow : low.length = 4) (numberLow : Numeral low (0xDC00 + (c.toNat - 0x10000) % 0x400))
    (rest : List Char) :
    unicode? (high ++ '\\' :: 'u' :: (low ++ rest)) = some (c, rest) := by
  -- Above the basic plane there are 0x400 * 0x400 characters, so each half stays in its range.
  have hbelow : c.toNat < 0x110000 := by
    have hvalid : c.toNat < 0xD800 ∨ 0xDFFF < c.toNat ∧ c.toNat < 0x110000 := c.valid
    omega
  generalize hq : (c.toNat - 0x10000) / 0x400 = q at numberHigh
  generalize hr : (c.toNat - 0x10000) % 0x400 = r at numberLow
  have hlow : lowHalf? ('\\' :: 'u' :: (low ++ rest)) = some (0xDC00 + r, rest) := by
    rw [lowHalf?, digits?_append numberLow fourLow, Option.filter_some, if_pos]
    simp only [Bool.and_eq_true, decide_eq_true_eq]
    omega
  have hjoined : 0x10000 + (0xD800 + q - 0xD800) * 0x400 + (0xDC00 + r - 0xDC00) = c.toNat := by
    omega
  rw [unicode?.eq_2 _ (ne_brace_of_numeral numberHigh fourHigh _),
    digits?_append numberHigh fourHigh]
  dsimp only
  rw [if_pos, hlow]
  · dsimp only
    rw [hjoined, char?_toNat, Option.map_some]
  · simp only [Bool.and_eq_true, decide_eq_true_eq]
    omega

theorem unicode?_braced (hsome : ds ≠ []) (h : Numeral ds c.toNat) (rest : List Char) :
    unicode? ('\x7b' :: (ds ++ '\x7d' :: rest)) = some (c, rest) := by
  obtain ⟨hds, hnumber⟩ := numeral_iff.mp h
  have hinside : ∀ d ∈ ds, d != '\x7d' := by
    intro d hd
    have hhex := List.all_eq_true.mp hds d hd
    rw [bne_iff_ne]
    rintro rfl
    exact absurd hhex (by decide)
  have htake : (ds ++ '\x7d' :: rest).takeWhile (· != '\x7d') = ds := by
    rw [List.takeWhile_append_of_pos hinside]
    simp
  have hdrop : (ds ++ '\x7d' :: rest).dropWhile (· != '\x7d') = '\x7d' :: rest := by
    rw [List.dropWhile_append_of_pos hinside]
    simp
  rw [unicode?, htake, hdrop]
  dsimp only
  rw [if_neg, hnumber, char?_toNat]
  · rfl
  · simpa [hsome] using hds

theorem escape_of_not_special (h : c ∉ special) (cs : List Char) :
    escape (c :: cs) = ([c], cs) := by
  unfold escape
  split <;> simp_all [special]

theorem decodeChars_of_escape {tail : List Char} (h : escape (tail ++ rest) = ([c], rest)) :
    decodeChars ('\\' :: tail ++ rest) = c :: decodeChars rest := by
  rw [List.cons_append, decodeChars_escape, h]
  rfl

/-- Each form of a character is read as the character. -/
theorem decodeChars_form {part : List Char} (h : Form rest c part) :
    decodeChars (part ++ rest) = c :: decodeChars rest := by
  cases h with
  | plain ordinary => exact decodeChars_cons ordinary rest
  | escaped ordinary => exact decodeChars_of_escape (escape_of_not_special ordinary rest)
  | named name =>
    have hall : ∀ p ∈ named, escape (p.1 :: rest) = ([p.2], rest) := by
      simp [named, escape]
    exact decodeChars_of_escape (hall _ name)
  | null ended =>
    refine decodeChars_of_escape ?_
    rw [List.singleton_append, escape, if_neg]
    cases hhead : rest.head? with
    | none => simp
    | some d => simpa using ended d hhead
  | byte two number =>
    refine decodeChars_of_escape ?_
    rw [List.cons_append, escape, digits?_append number two]
    dsimp only
    rw [Char.ofNat_toNat]
  | unit four number =>
    refine decodeChars_of_escape ?_
    rw [List.cons_append, escape, unicode?_unit four number]
  | pair above fourHigh numberHigh fourLow numberLow =>
    refine decodeChars_of_escape ?_
    rw [List.cons_append, List.append_assoc, List.cons_append, List.cons_append, escape,
      unicode?_pair above fourHigh numberHigh fourLow numberLow]
  | braced some number =>
    refine decodeChars_of_escape ?_
    rw [List.cons_append, List.cons_append, List.append_assoc, List.singleton_append, escape,
      unicode?_braced some number]

/-- A continued line leaves nothing. -/
theorem decodeChars_continues {part : List Char} (h : Continues rest part) :
    decodeChars (part ++ rest) = decodeChars rest := by
  have hnothing : ∀ tail, escape (tail ++ rest) = ([], rest) →
      decodeChars ('\\' :: tail ++ rest) = decodeChars rest := by
    intro tail htail
    rw [List.cons_append, decodeChars_escape, htail]
    rfl
  cases h with
  | lineFeed => exact hnothing ['\n'] (by simp [escape])
  | both => exact hnothing ['\r', '\n'] (by simp [escape])
  | carriageReturn alone =>
    refine hnothing ['\r'] ?_
    rw [List.singleton_append, escape]
    rintro cs rfl
    exact alone '\n' rfl rfl
  | lineSeparator => exact hnothing ['\u2028'] (by simp [escape])
  | paragraphSeparator => exact hnothing ['\u2029'] (by simp [escape])

theorem decodeChars_of_spells {cs raw : List Char} (h : Spells cs raw) : decodeChars raw = cs := by
  induction h with
  | done => rfl
  | char form more ih => rw [decodeChars_form form, ih]
  | continued line more ih => rw [decodeChars_continues line, ih]

/-- Decoding any spelling of a text gives the text. -/
theorem decode_eq_of_spells {s raw : String} (h : Spells s.toList raw.toList) : decode raw = s := by
  rw [decode, decodeChars_of_spells h, String.ofList_toList]

/-- A text with each form in a spelling, next to what could be taken for a part of it. -/
def mixed : String := "éq\n\x001AB😀C\u0000D\\"

def mixedSpelling : String :=
  "é\\q\\n\\0\\\r1\\x41\\u0042\\uD83D\\uDE00\\u0043\\0\\\r\n\\u\x7b0000044\x7d\\\\\\\n"

theorem mixed_decoded :
    Spells mixed.toList mixedSpelling.toList ∧ decode mixedSpelling = mixed := by
  have htext : mixed.toList =
      ['é', 'q', '\n', '\x00', '1', 'A', 'B', '😀', 'C', '\x00', 'D', '\\'] := by decide
  have hraw : mixedSpelling.toList =
      ['é'] ++ (['\\', 'q'] ++ (['\\', 'n'] ++ (['\\', '0'] ++ (['\\', '\r'] ++ (['1'] ++
      (['\\', 'x', '4', '1'] ++ (['\\', 'u', '0', '0', '4', '2'] ++
      ('\\' :: 'u' :: (['D', '8', '3', 'D'] ++ '\\' :: 'u' :: ['D', 'E', '0', '0']) ++
      (['\\', 'u', '0', '0', '4', '3'] ++ (['\\', '0'] ++ (['\\', '\r', '\n'] ++
      ('\\' :: 'u' :: '\x7b' :: (['0', '0', '0', '0', '0', '4', '4'] ++ ['\x7d']) ++
      (['\\', '\\'] ++ (['\\', '\n'] ++ [])))))))))))))) := by decide
  have h : Spells mixed.toList mixedSpelling.toList := by
    rw [htext, hraw]
    exact .char (.plain (by decide)) <| .char (.escaped (by decide)) <|
      .char (.named (by decide)) <| .char (.null (by simp)) <|
      .continued (.carriageReturn (by simp)) <| .char (.plain (by decide)) <|
      .char (.byte rfl (numeral_iff.mpr (by decide))) <|
      .char (.unit rfl (numeral_iff.mpr (by decide))) <|
      .char (.pair (by decide) rfl (numeral_iff.mpr (by decide)) rfl
        (numeral_iff.mpr (by decide))) <|
      .char (.unit rfl (numeral_iff.mpr (by decide))) <|
      .char (.null (by simp)) <| .continued .both <|
      .char (.braced (by decide) (numeral_iff.mpr (by decide))) <|
      .char (.escaped (by decide)) <| .continued .lineFeed .done
  exact ⟨h, decode_eq_of_spells h⟩

end TokenLint.Source.Literal
