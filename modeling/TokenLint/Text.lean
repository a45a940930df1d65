/-!
# Text measured in UTF-8 bytes

Offsets and lengths count bytes. A text is a list of characters; cutting it at an offset
inside a character is refused, never rounded. Blank characters are those with the Unicode
property `White_Space`.
-/
namespace TokenLint

/-- A range of bytes. -/
structure Span where
  start : Nat
  stop : Nat
  deriving DecidableEq, Repr

/-- The characters not yet read, and how many bytes were read before them. -/
structure Cursor where
  rest : List Char
  pos : Nat

end TokenLint

namespace TokenLint.Text

/-- Bytes the characters take. -/
def size : List Char → Nat
  | [] => 0
  | c :: cs => c.utf8Size + size cs

/-- What follows the first `n` bytes. -/
def drop? : List Char → Nat → Option (List Char)
  | cs, 0 => some cs
  | [], _ + 1 => none
  | c :: cs, n + 1 => if c.utf8Size ≤ n + 1 then drop? cs (n + 1 - c.utf8Size) else none

/-- The first `n` bytes. -/
def take? : List Char → Nat → Option (List Char)
  | _, 0 => some []
  | [], _ + 1 => none
  | c :: cs, n + 1 =>
    if c.utf8Size ≤ n + 1 then (take? cs (n + 1 - c.utf8Size)).map (c :: ·) else none

/-- The bytes from `start` up to `stop`, when both are character boundaries in order. -/
def slice? (cs : List Char) (start stop : Nat) : Option (List Char) :=
  if start ≤ stop then (drop? cs start).bind (take? · (stop - start)) else none

/-- The text of a range; nothing when the range does not fit. -/
def slice (text : String) (span : Span) : String :=
  String.ofList ((slice? text.toList span.start span.stop).getD [])

/-- The line and the column, both from zero, of an offset. -/
def position (cs : List Char) (offset : Nat) : Nat × Nat :=
  go cs offset 0 0
where
  go : List Char → Nat → Nat → Nat → Nat × Nat
  | [], left, line, column => (line, column + left)
  | c :: cs, left, line, column =>
    if left < c.utf8Size then (line, column + left)
    else if c == '\n' then go cs (left - c.utf8Size) (line + 1) 0
    else go cs (left - c.utf8Size) line (column + c.utf8Size)

/-- `White_Space` of the Unicode character database. -/
def isBlank (c : Char) : Bool :=
  let n := c.toNat
  (0x09 ≤ n && n ≤ 0x0D) || n == 0x20 || n == 0x85 || n == 0xA0 || n == 0x1680 ||
  (0x2000 ≤ n && n ≤ 0x200A) || n == 0x2028 || n == 0x2029 || n == 0x202F || n == 0x205F ||
  n == 0x3000

def isHex (c : Char) : Bool :=
  c.isDigit || ('a' ≤ c && c ≤ 'f') || ('A' ≤ c && c ≤ 'F')

/-- Where each run of ten decimal digits begins: the digits of general category `Nd`. -/
def zeros : List Nat :=
  [0x30, 0x660, 0x6f0, 0x7c0, 0x966, 0x9e6, 0xa66, 0xae6, 0xb66, 0xbe6, 0xc66, 0xce6, 0xd66,
   0xde6, 0xe50, 0xed0, 0xf20, 0x1040, 0x1090, 0x17e0, 0x1810, 0x1946, 0x19d0, 0x1a80, 0x1a90,
   0x1b50, 0x1bb0, 0x1c40, 0x1c50, 0xa620, 0xa8d0, 0xa900, 0xa9d0, 0xa9f0, 0xaa50, 0xabf0,
   0xff10, 0x104a0, 0x10d30, 0x10d40, 0x11066, 0x110f0, 0x11136, 0x111d0, 0x112f0, 0x11450,
   0x114d0, 0x11650, 0x116c0, 0x116d0, 0x116da, 0x11730, 0x118e0, 0x11950, 0x11bf0, 0x11c50,
   0x11d50, 0x11da0, 0x11de0, 0x11f50, 0x16130, 0x16a60, 0x16ac0, 0x16b50, 0x16d70, 0x1ccf0,
   0x1d7ce, 0x1d7d8, 0x1d7e2, 0x1d7ec, 0x1d7f6, 0x1e140, 0x1e2f0, 0x1e4f0, 0x1e5f1, 0x1e950,
   0x1fbf0]

/-- A decimal digit of any script. -/
def isDecimal (c : Char) : Bool := zeros.any fun z => z ≤ c.toNat && c.toNat < z + 10

def dropEndWhile (p : Char → Bool) (cs : List Char) : List Char :=
  (cs.reverse.dropWhile p).reverse

def trimChars (cs : List Char) : List Char :=
  dropEndWhile isBlank (cs.dropWhile isBlank)

/-- Without the blanks at either end. -/
def trim (s : String) : String := String.ofList (trimChars s.toList)

/-- Without the blanks at the end. -/
def trimEnd (s : String) : String := String.ofList (dropEndWhile isBlank s.toList)

/-- Splits off the leading run of characters that are not blank. -/
def wordsFrom : List Char → List Char → List (List Char)
  | [], [] => []
  | [], word => [word.reverse]
  | c :: cs, word =>
    if isBlank c then
      if word.isEmpty then wordsFrom cs [] else word.reverse :: wordsFrom cs []
    else wordsFrom cs (c :: word)

/-- The maximal runs of characters that are not blank, in order. -/
def words (s : String) : List String :=
  (wordsFrom s.toList []).map String.ofList

/-- The pieces between separators, the last one included. -/
def splitOn (sep : Char) : List Char → List (List Char)
  | [] => [[]]
  | c :: cs =>
    if c == sep then [] :: splitOn sep cs
    else match splitOn sep cs with
      | [] => [[c]]
      | piece :: pieces => (c :: piece) :: pieces

/-- The lines of a text, without the line feed, or the carriage return and line feed, at the end. -/
def lines (cs : List Char) : List (List Char) :=
  let pieces := splitOn '\n' cs
  let ended := pieces.dropLast.map fun line =>
    if line.getLast? == some '\r' then line.dropLast else line
  match pieces.getLast? with
  | some [] | none => ended
  | some last => ended ++ [last]

/-- Whether `part` starts the text. -/
def startsWith : List Char → List Char → Bool
  | _, [] => true
  | [], _ :: _ => false
  | c :: cs, p :: ps => c == p && startsWith cs ps

/-- Whether `part` occurs in the text. -/
def contains : List Char → List Char → Bool
  | [], part => part.isEmpty
  | c :: cs, part => startsWith (c :: cs) part || contains cs part

def endsWith (cs part : List Char) : Bool := startsWith cs.reverse part.reverse

/-- Characters before the first occurrence of `part`, and those after it. -/
def cut? (part : List Char) : List Char → Option (List Char × List Char)
  | [] => if part.isEmpty then some ([], []) else none
  | c :: cs =>
    if startsWith (c :: cs) part then some ([], (c :: cs).drop part.length)
    else (cut? part cs).map fun (before, after) => (c :: before, after)

/-- Texts without repeats, in the order of their first appearance. -/
def distinct : List String → List String
  | [] => []
  | x :: xs => x :: (distinct xs).filter (· != x)

/-- ASCII letters in lower case, everything else as it is. -/
def lower (s : String) : String := String.ofList (s.toList.map Char.toLower)

/-- A row of one character. -/
def row (c : Char) (n : Nat) : String := String.ofList (List.replicate n c)

end TokenLint.Text
