import TokenLint.Pattern.Fault

/-!
# Terms of a pattern

What a pattern says, before flags decide what it means. Terms remember their regions, since some
faults show only when the meaning is worked out.
-/
namespace TokenLint.Pattern

/-- A single character. -/
structure Letter where
  char : Char
  region : Region
  /-- Whether it was spelled as a number of two hexadecimal digits, which can mean a byte. -/
  isByte : Bool := false

inductive Anchor where
  | lineStart
  | lineEnd
  | textStart
  | textEnd
  | wordEdge
  | noWordEdge
  | wordStart
  | wordEnd
  | wordStartHalf
  | wordEndHalf
  deriving DecidableEq, Repr

/-- Sets with a one-letter escape. -/
inductive Shorthand where
  | digit
  | space
  | word
  deriving DecidableEq, Repr

/-- Named sets of ASCII characters. -/
inductive AsciiSet where
  | alnum
  | alpha
  | ascii
  | blank
  | cntrl
  | digit
  | graph
  | lower
  | print
  | punct
  | space
  | upper
  | word
  | xdigit
  deriving DecidableEq, Repr

def AsciiSet.named? (name : List Char) : Option AsciiSet :=
  match String.ofList name with
  | "alnum" => some alnum
  | "alpha" => some alpha
  | "ascii" => some ascii
  | "blank" => some blank
  | "cntrl" => some cntrl
  | "digit" => some digit
  | "graph" => some graph
  | "lower" => some lower
  | "print" => some print
  | "punct" => some punct
  | "space" => some space
  | "upper" => some upper
  | "word" => some word
  | "xdigit" => some xdigit
  | _ => none

/-- How a property of characters is asked for. -/
inductive PropertyQuery where
  | plain (name : String)
  | valued (name value : String)
  deriving DecidableEq, Repr

/-- What a bracketed set combines its operands by. -/
inductive SetOp where
  | intersection
  | difference
  | symmetricDifference
  deriving DecidableEq, Repr

/-- What an escape stands for. -/
inductive Atom where
  | letter (l : Letter)
  | anchor (a : Anchor) (region : Region)
  | shorthand (s : Shorthand) (negated : Bool) (region : Region)
  | property (q : PropertyQuery) (negated : Bool) (region : Region)

/-- Part of a bracketed set. -/
inductive SetItem where
  | letter (l : Letter)
  | range (low high : Letter)
  | ascii (s : AsciiSet) (negated : Bool) (region : Region)
  | shorthand (s : Shorthand) (negated : Bool) (region : Region)
  | property (q : PropertyQuery) (negated : Bool) (region : Region)
  | bracketed (negated : Bool) (body : SetItem) (region : Region)
  | union (items : List SetItem) (region : Region)
  | combined (op : SetOp) (left right : SetItem) (region : Region)

inductive Flag where
  | ignoreCase
  | multiLine
  | dotAll
  | swapGreed
  | unicode
  | crlf
  | verbose
  deriving DecidableEq, Repr

/-- Flags that a pattern turns on or off. -/
abbrev FlagChange := List (Flag × Bool)

inductive Term where
  | empty
  | letter (l : Letter)
  | dot (region : Region)
  | anchor (a : Anchor)
  | shorthand (s : Shorthand) (negated : Bool) (region : Region)
  | property (q : PropertyQuery) (negated : Bool) (region : Region)
  | bracketed (negated : Bool) (body : SetItem) (region : Region)
  | flags (change : FlagChange)
  | repeated (low : Nat) (high : Option Nat) (body : Term) (region : Region)
  | group (change : FlagChange) (body : Term) (region : Region)
  | choice (branches : List Term) (region : Region)
  | sequence (parts : List Term) (region : Region)

namespace SetItem

/-- The region of an item. -/
def region : SetItem → Region
  | letter l => l.region
  | range low high => ⟨low.region.first, high.region.last⟩
  | ascii _ _ r | shorthand _ _ r | property _ _ r | bracketed _ _ r | union _ r
  | combined _ _ _ r => r

end SetItem

/-- The first region, outermost first and then from the left, nested deeper than a limit. -/
def firstTooDeep (limit depth : Nat) (region : Region) (inner : Nat → Option Region) :
    Option Region :=
  if depth < limit then inner (depth + 1) else some region

mutual
def SetItem.tooDeep? (limit : Nat) : SetItem → Nat → Option Region
  | .bracketed _ body r, depth => firstTooDeep limit depth r (body.tooDeep? limit ·)
  | .union items r, depth => firstTooDeep limit depth r (itemsTooDeep? limit items ·)
  | .combined _ left right r, depth =>
    firstTooDeep limit depth r fun d =>
      (left.tooDeep? limit d).or (right.tooDeep? limit d)
  | _, _ => none

def itemsTooDeep? (limit : Nat) : List SetItem → Nat → Option Region
  | [], _ => none
  | i :: is, depth => (i.tooDeep? limit depth).or (itemsTooDeep? limit is depth)
end

mutual
/-- The first part of a term nested deeper than a limit. -/
def Term.tooDeep? (limit : Nat) : Term → Nat → Option Region
  | .bracketed _ body r, depth => firstTooDeep limit depth r (body.tooDeep? limit ·)
  | .repeated _ _ body r, depth => firstTooDeep limit depth r (body.tooDeep? limit ·)
  | .group _ body r, depth => firstTooDeep limit depth r (body.tooDeep? limit ·)
  | .choice branches r, depth => firstTooDeep limit depth r (termsTooDeep? limit branches ·)
  | .sequence parts r, depth => firstTooDeep limit depth r (termsTooDeep? limit parts ·)
  | _, _ => none

def termsTooDeep? (limit : Nat) : List Term → Nat → Option Region
  | [], _ => none
  | t :: ts, depth => (t.tooDeep? limit depth).or (termsTooDeep? limit ts depth)
end

end TokenLint.Pattern
