import TokenLint.Text

/-!
# Reading bytes as UTF-8

A lead byte fixes how many bytes follow it and from which ranges. Where the bytes break off
before a character is complete, the part read so far counts as one error.
-/
namespace TokenLint.Text.Utf8

/-- The ranges of the bytes that follow a lead byte. -/
def followers? (lead : UInt8) : Option (List (UInt8 × UInt8)) :=
  let any : UInt8 × UInt8 := (0x80, 0xBF)
  if lead ≤ 0x7F then some []
  else if lead < 0xC2 then none
  else if lead ≤ 0xDF then some [any]
  else if lead == 0xE0 then some [(0xA0, 0xBF), any]
  else if lead == 0xED then some [(0x80, 0x9F), any]
  else if lead ≤ 0xEF then some [any, any]
  else if lead == 0xF0 then some [(0x90, 0xBF), any, any]
  else if lead ≤ 0xF3 then some [any, any, any]
  else if lead == 0xF4 then some [(0x80, 0x8F), any, any]
  else none

/-- How many of the bytes fall into their ranges, up to the first that does not. -/
def fitting : List (UInt8 × UInt8) → List UInt8 → Nat
  | (low, high) :: ranges, b :: bs => if low ≤ b && b ≤ high then fitting ranges bs + 1 else 0
  | _, _ => 0

/-- The bits that a lead byte contributes, when so many bytes follow it. -/
def leadBits (count : Nat) (lead : UInt8) : Nat :=
  match count with
  | 0 => lead.toNat
  | 1 => lead.toNat % 32
  | 2 => lead.toNat % 16
  | _ => lead.toNat % 8

def scalar (count : Nat) (lead : UInt8) (bs : List UInt8) : Char :=
  Char.ofNat ((bs.take count).foldl (fun n b => 64 * n + b.toNat % 64) (leadBits count lead))

/-- The characters of bytes of which some belong to the character before, with nothing in the
place of an error. -/
def charsFrom : Nat → List UInt8 → List (Option Char)
  | _, [] => []
  | skipped + 1, _ :: bs => charsFrom skipped bs
  | 0, b :: bs =>
    match followers? b with
    | none => none :: charsFrom 0 bs
    | some ranges =>
      let n := fitting ranges bs
      (if n == ranges.length then some (scalar n b bs) else none) :: charsFrom n bs

/-- The text that bytes encode. -/
def decode? (bs : List UInt8) : Option String :=
  ((charsFrom 0 bs).mapM id).map String.ofList

/-- The text that bytes encode, with a replacement character for each error. -/
def decodeLossy (bs : List UInt8) : String :=
  String.ofList ((charsFrom 0 bs).map (·.getD '\uFFFD'))

end TokenLint.Text.Utf8
