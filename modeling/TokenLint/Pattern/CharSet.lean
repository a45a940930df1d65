import TokenLint.Text.Property
import TokenLint.Text.Script
import TokenLint.Text.Folding
import TokenLint.Pattern.Term

/-!
# Sets of characters
-/
namespace TokenLint.Pattern

inductive CharSet where
  | range (low high : Char)
  | category (c : Text.Category)
  /-- A script, by its place among the names of scripts. -/
  | script (place : Nat)
  /-- Characters that a script is used for. -/
  | scriptUse (place : Nat)
  | property (p : Text.Property)
  | blank
  | decimal
  | word
  | union (left right : CharSet)
  | intersection (left right : CharSet)
  | complement (s : CharSet)
  /-- With every character that differs from a member only in case. -/
  | folded (s : CharSet)
  /-- With every ASCII letter that differs from a member only in case. -/
  | asciiFolded (s : CharSet)

namespace CharSet

/-- The other case of an ASCII letter; other characters as they are. -/
def otherCase (c : Char) : Char := if c.isUpper then c.toLower else c.toUpper

def mem : CharSet → Char → Bool
  | range low high, c => low ≤ c && c ≤ high
  | category k, c => Text.Category.ofChar c == k
  | script n, c => Text.Script.ofChar? c == some n
  | scriptUse n, c => Text.Script.hasScript n c
  | property p, c => p.holds c
  | blank, c => Text.isBlank c
  | decimal, c => Text.isDecimal c
  | word, c => Text.isWord c
  | union s t, c => s.mem c || t.mem c
  | intersection s t, c => s.mem c && t.mem c
  | complement s, c => !s.mem c
  | folded s, c => (Text.Folding.orbit c).any fun n => s.mem (Char.ofNat n)
  | asciiFolded s, c => s.mem c || s.mem (otherCase c)

/-- The set of all characters. -/
def all : CharSet := range '\x00' (Char.ofNat 0x10FFFF)

/-- The set of no character. -/
def none : CharSet := complement all

def single (c : Char) : CharSet := range c c

def unionAll : List CharSet → CharSet
  | [] => none
  | [s] => s
  | s :: rest => union s (unionAll rest)

def combine : SetOp → CharSet → CharSet → CharSet
  | .intersection, s, t => intersection s t
  | .difference, s, t => intersection s (complement t)
  | .symmetricDifference, s, t =>
    union (intersection s (complement t)) (intersection t (complement s))

def negateIf (negated : Bool) (s : CharSet) : CharSet := if negated then complement s else s

/-- Whether a set of bytes, each given as the character of its number, has ASCII bytes only. -/
def isAsciiBytes (s : CharSet) : Bool :=
  (List.range 128).all fun n => !s.mem (Char.ofNat (n + 128))

def asciiRanges : AsciiSet → List (Char × Char)
  | .alnum => [('0', '9'), ('A', 'Z'), ('a', 'z')]
  | .alpha => [('A', 'Z'), ('a', 'z')]
  | .ascii => [('\x00', '\x7F')]
  | .blank => [('\t', '\t'), (' ', ' ')]
  | .cntrl => [('\x00', '\x1F'), ('\x7F', '\x7F')]
  | .digit => [('0', '9')]
  | .graph => [('!', '~')]
  | .lower => [('a', 'z')]
  | .print => [(' ', '~')]
  | .punct => [('!', '/'), (':', '@'), ('[', '\x60'), ('{', '~')]
  | .space => [('\t', '\r'), (' ', ' ')]
  | .upper => [('A', 'Z')]
  | .word => [('0', '9'), ('A', 'Z'), ('_', '_'), ('a', 'z')]
  | .xdigit => [('0', '9'), ('A', 'F'), ('a', 'f')]

def ascii (s : AsciiSet) : CharSet :=
  unionAll ((asciiRanges s).map fun (low, high) => range low high)

/-- The set of a shorthand, over all characters or over ASCII. -/
def shorthand (unicode : Bool) : Shorthand → CharSet
  | .digit => if unicode then decimal else ascii .digit
  | .space => if unicode then blank else ascii .space
  | .word => if unicode then word else ascii .word

end CharSet
end TokenLint.Pattern
