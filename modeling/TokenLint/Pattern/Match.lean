import TokenLint.Pattern.Meaning

/-!
# Matching

A matcher takes the places of a text where it may begin to the places where it can end, without
trying one way after another. Places are numbers of characters.
-/
namespace TokenLint.Pattern

/-- Whether a character is part of a word. -/
def isWordPart (unicode : Bool) (c : Option Char) : Bool :=
  match c with
  | none => false
  | some c => if unicode then Text.isWord c else c.isAlphanum || c == '_'

/-- Whether a condition holds between two characters, either of which may be missing. -/
def Edge.holds : Edge → Option Char → Option Char → Bool
  | textStart, before, _ => before.isNone
  | textEnd, _, behind => behind.isNone
  | lineStart false, before, _ => before.isNone || before == some '\n'
  | lineStart true, before, behind =>
    before.isNone || before == some '\n' || (before == some '\r' && behind != some '\n')
  | lineEnd false, _, behind => behind.isNone || behind == some '\n'
  | lineEnd true, before, behind =>
    behind.isNone || behind == some '\r' || (behind == some '\n' && before != some '\r')
  | word unicode test, before, behind =>
    test (isWordPart unicode before) (isWordPart unicode behind)

/-- The character before a place. -/
def before? (text : Array Char) : Nat → Option Char
  | 0 => none
  | n + 1 => text[n]?

/-- The places of two lists, those of the second only when they are new. -/
def joined (xs ys : List Nat) : List Nat := xs ++ ys.filter (!xs.contains ·)

/-- The place behind a character of a set. -/
def step? (text : Array Char) (s : CharSet) (place : Nat) : Option Nat :=
  (text[place]?).bind fun c => if s.mem c then some (place + 1) else none

/-- The places reached by at most `n` steps from those reached last. -/
def reach (step : List Nat → List Nat) : Nat → List Nat → List Nat → List Nat
  | 0, reached, _ => reached
  | n + 1, reached, latest =>
    let new := (step latest).filter (!reached.contains ·)
    if new.isEmpty then reached else reach step n (reached ++ new) new

/-- Where a matcher can end. A repetition longer than the text stands still in between, so one
step more than there are characters is enough. -/
def Matcher.ends (text : Array Char) : Matcher → List Nat → List Nat
  | nothing, places => places
  | one s, places => places.filterMap (step? text s)
  | edge e, places => places.filter fun p => e.holds (before? text p) text[p]?
  | both first second, places => second.ends text (first.ends text places)
  | either left right, places => joined (left.ends text places) (right.ends text places)
  | repeated low high body, places =>
    let enough := text.size + 1
    let more := high.elim enough fun n => min (n - low) enough
    let least := Nat.repeat (body.ends text) (min low enough) places
    reach (body.ends text) more least least

end TokenLint.Pattern
