import TokenLint.Json.Value

/-!
# JSON values as text

Members and items stand on lines of their own, two blanks further in than what they belong to.
-/
namespace TokenLint.Json

/-- One digit of a number below sixteen. -/
def hexDigit (n : Nat) : Char := if n < 10 then Char.ofNat (48 + n) else Char.ofNat (87 + n)

/-- A character between quotes. -/
def escapedChar (c : Char) : List Char :=
  if c == '"' then ['\\', '"']
  else if c == '\\' then ['\\', '\\']
  else if c == '\n' then ['\\', 'n']
  else if c == '\r' then ['\\', 'r']
  else if c == '\t' then ['\\', 't']
  else if c.toNat == 8 then ['\\', 'b']
  else if c.toNat == 12 then ['\\', 'f']
  else if c.toNat < 32 then ['\\', 'u', '0', '0', hexDigit (c.toNat / 16), hexDigit (c.toNat % 16)]
  else [c]

def quoted (s : String) : String :=
  String.ofList ('"' :: s.toList.flatMap escapedChar ++ ['"'])

/-- Where a line begins that is so many levels in. -/
def newLine (depth : Nat) : String := "\n" ++ String.ofList (List.replicate (2 * depth) ' ')

namespace Value

mutual
/-- The text of a value that stands so many levels in. -/
def textAt (depth : Nat) : Value → String
  | null => "null"
  | bool b => if b then "true" else "false"
  | natural n => toString n
  | negative n => toString n
  | double x => toString x
  | string s => quoted s
  | array [] => "[]"
  | array (v :: vs) =>
    "[" ++ newLine (depth + 1) ++ textAt (depth + 1) v ++ itemsAt (depth + 1) vs ++
      newLine depth ++ "]"
  | object [] => "\x7b\x7d"
  | object ((k, v) :: ms) =>
    "\x7b" ++ newLine (depth + 1) ++ quoted k ++ ": " ++ textAt (depth + 1) v ++
      membersAt (depth + 1) ms ++ newLine depth ++ "\x7d"

/-- The items behind the first. -/
def itemsAt (depth : Nat) : List Value → String
  | [] => ""
  | v :: vs => "," ++ newLine depth ++ textAt depth v ++ itemsAt depth vs

/-- The members behind the first. -/
def membersAt (depth : Nat) : List (String × Value) → String
  | [] => ""
  | (k, v) :: ms =>
    "," ++ newLine depth ++ quoted k ++ ": " ++ textAt depth v ++ membersAt depth ms
end

/-- The text of a document. -/
def text (v : Value) : String := v.textAt 0

end Value
end TokenLint.Json
