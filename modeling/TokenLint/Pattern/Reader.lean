import TokenLint.Text.Property
import TokenLint.Pattern.Term

/-!
# Reading a pattern character by character

In verbose mode blanks, and comments from `#` to the end of the line, stand for nothing.
-/
namespace TokenLint.Pattern

structure State where
  rest : List Char
  place : Place
  verbose : Bool
  /-- Group names met so far, with where they are. -/
  names : List (List Char × Region)

namespace State

def start (cs : List Char) : State := ⟨cs, ⟨0, 1, 1⟩, false, []⟩

/-- Passes one character. -/
def bump (s : State) : State :=
  match s.rest with
  | [] => s
  | c :: cs => { s with rest := cs, place := s.place.after c }

/-- Passes blanks and comments; the flag says whether a comment has begun. -/
def passBlanks : Bool → List Char → Place → List Char × Place
  | _, [], p => ([], p)
  | true, c :: cs, p => passBlanks (c != '\n') cs (p.after c)
  | false, c :: cs, p =>
    if Text.isBlank c then passBlanks false cs (p.after c)
    else if c == '#' then passBlanks true cs (p.after c)
    else (c :: cs, p)

/-- In verbose mode passes what stands for nothing. -/
def space (s : State) : State :=
  if s.verbose then
    let (rest, place) := passBlanks false s.rest s.place
    { s with rest, place }
  else s

/-- Passes one character, and what stands for nothing behind it. -/
def step (s : State) : State := s.bump.space

/-- Takes characters that satisfy a test. -/
def gather (p : Char → Bool) : Nat → State → List Char × State
  | 0, s => ([], s)
  | fuel + 1, s =>
    match s.rest with
    | [] => ([], s)
    | c :: _ =>
      if p c then
        let (cs, s') := gather p fuel s.step
        (c :: cs, s')
      else ([], s)

/-- Takes all the characters that satisfy a test. -/
def takeWhile (p : Char → Bool) (s : State) : List Char × State := s.gather p s.rest.length

/-- The character behind the current one, as it will be met. -/
def next? (s : State) : Option Char :=
  match s.rest with
  | [] => none
  | _ :: cs =>
    if s.verbose then
      match cs.dropWhile Text.isBlank with
      | '#' :: more =>
        match more.dropWhile Text.isBlank with
        | [] => cs.head?
        | c :: _ => some c
      | [] => cs.head?
      | c :: _ => some c
    else cs.head?

end State

abbrev Reader := StateT State (Except Defect)

namespace Reader

def here : Reader Place := return (← get).place

/-- The current character. -/
def current? : Reader (Option Char) := return (← get).rest.head?

def atEnd : Reader Bool := return (← get).rest.isEmpty

def bump : Reader Unit := modify State.bump

def space : Reader Unit := modify State.space

def step : Reader Unit := modify State.step

def fail {α : Type} (fault : Fault) (first last : Place) : Reader α :=
  throw ⟨fault, ⟨first, last⟩, none⟩

/-- A fault at the current place. -/
def failHere {α : Type} (fault : Fault) : Reader α := do
  let p ← here
  fail fault p p

/-- The region of the current character. -/
def charRegion : Reader Region := do
  let p ← here
  return ⟨p, ((← current?).map p.after).getD p⟩

/-- A fault of the current character. -/
def failChar {α : Type} (fault : Fault) : Reader α := do
  let r ← charRegion
  fail fault r.first r.last

/-- Passes a text if it comes next. -/
def accept (text : List Char) : Reader Bool := do
  if Text.startsWith (← get).rest text then
    modify fun s => text.foldl (fun s _ => s.bump) s
    return true
  else return false

def takeWhile (p : Char → Bool) : Reader (List Char) := modifyGet (State.takeWhile p)

/-- The largest count. -/
def maxCount : Nat := 4294967295

/-- A decimal number with blanks around it, or the fault that it would be to use it. -/
def decimal : Reader (Except Defect Nat) := do
  modify fun s =>
    let blanks := s.rest.takeWhile Text.isBlank
    blanks.foldl (fun s _ => s.bump) s
  let first ← here
  let digits ← takeWhile Char.isDigit
  let last ← here
  let _ ← takeWhile Text.isBlank
  if digits.isEmpty then return .error ⟨.countMissing, ⟨first, last⟩, none⟩
  let n := digits.foldl (fun n c => 10 * n + (c.toNat - 48)) 0
  if maxCount < n then return .error ⟨.decimalTooLarge, ⟨first, last⟩, none⟩
  return .ok n

end Reader
end TokenLint.Pattern
