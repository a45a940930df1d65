import TokenLint.Source.Node

/-!
# String and template literals

The ranges of their static text, and what the escapes in it stand for. The parts of a template
and its interpolations tile the space between the outer marks.
-/
namespace TokenLint.Source

namespace Node

/-- What stands between the quotes. -/
def content (n : Node) : Span :=
  if n.stop - n.start < 2 then ⟨n.start, n.start⟩ else ⟨n.start + 1, n.stop - 1⟩

/-- The interpolations of a template. -/
def substitutions (n : Node) : List Node :=
  n.children.filter (·.kind == .substitution)

/-- The gaps before, between and behind some ranges that lie in `start` to `stop`. -/
def gaps (stop : Nat) : Nat → List Node → List Span
  | start, [] => [⟨start, max stop start⟩]
  | start, n :: ns => ⟨start, max n.start start⟩ :: gaps stop n.stop ns

/-- The static parts of a template, one more than it has interpolations. -/
def quasis (n : Node) : List Span :=
  gaps (n.stop - 1) (n.start + 1) n.substitutions

end Node

namespace Literal

def hexValue (c : Char) : Nat :=
  if c.isDigit then c.toNat - '0'.toNat
  else if 'a' ≤ c ∧ c ≤ 'f' then c.toNat - 'a'.toNat + 10
  else if 'A' ≤ c ∧ c ≤ 'F' then c.toNat - 'A'.toNat + 10
  else 0

/-- The number that hexadecimal digits spell. -/
def hexNumber (cs : List Char) : Nat := cs.foldl (fun n c => 16 * n + hexValue c) 0

/-- Exactly `n` hexadecimal digits, and what follows them. -/
def digits? (n : Nat) (cs : List Char) : Option (Nat × List Char) :=
  let ds := cs.take n
  if ds.length == n && ds.all Text.isHex then some (hexNumber ds, cs.drop n) else none

def replacement : Char := '\uFFFD'

def char? (n : Nat) : Option Char :=
  if h : n.isValidChar then some (Char.ofNatAux n h) else none

/-- The second half of a pair that spells one character above the basic plane. -/
def lowHalf? : List Char → Option (Nat × List Char)
  | '\\' :: 'u' :: cs =>
    (digits? 4 cs).filter fun (unit, _) => 0xDC00 ≤ unit && unit < 0xE000
  | _ => none

/-- What follows `\u`: the character that it spells, and the rest. -/
def unicode? : List Char → Option (Char × List Char)
  | '{' :: cs =>
    let ds := cs.takeWhile (· != '}')
    match cs.dropWhile (· != '}') with
    | [] => none
    | _ :: rest =>
      if ds.isEmpty || !ds.all Text.isHex then none
      else (char? (hexNumber ds)).map (·, rest)
  | cs =>
    match digits? 4 cs with
    | none => none
    | some (unit, rest) =>
      if 0xD800 ≤ unit && unit < 0xDC00 then
        match lowHalf? rest with
        | some (low, rest') =>
          (char? (0x10000 + (unit - 0xD800) * 0x400 + (low - 0xDC00))).map (·, rest')
        | none => some (replacement, rest)
      else some ((char? unit).getD replacement, rest)

/-- What follows a backslash: the text that it stands for, and the rest. A numeric escape that
is not well formed stands for itself. -/
def escape : List Char → List Char × List Char
  | [] => (['\\'], [])
  | 'n' :: cs => (['\n'], cs)
  | 't' :: cs => (['\t'], cs)
  | 'r' :: cs => (['\r'], cs)
  | 'b' :: cs => (['\x08'], cs)
  | 'f' :: cs => (['\x0c'], cs)
  | 'v' :: cs => (['\x0b'], cs)
  | '0' :: cs => if (cs.head?.map Char.isDigit).getD false then (['0'], cs) else (['\x00'], cs)
  | '\r' :: '\n' :: cs => ([], cs)
  | '\r' :: cs => ([], cs)
  | '\n' :: cs => ([], cs)
  | '\u2028' :: cs => ([], cs)
  | '\u2029' :: cs => ([], cs)
  | 'x' :: cs =>
    match digits? 2 cs with
    | some (n, rest) => ([Char.ofNat n], rest)
    | none => (['\\', 'x'], cs)
  | 'u' :: cs =>
    match unicode? cs with
    | some (c, rest) => ([c], rest)
    | none => (['\\', 'u'], cs)
  | c :: cs => ([c], cs)

/-- Decodes at most `fuel` characters and escapes. -/
def decodeFrom : Nat → List Char → List Char
  | 0, _ => []
  | _ + 1, [] => []
  | fuel + 1, c :: cs =>
    if c == '\\' then (escape cs).1 ++ decodeFrom fuel (escape cs).2
    else c :: decodeFrom fuel cs

def decodeChars (cs : List Char) : List Char := decodeFrom cs.length cs

/-- The text that the body of a literal stands for. -/
def decode (raw : String) : String := String.ofList (decodeChars raw.toList)

end Literal
end TokenLint.Source
