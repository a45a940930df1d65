import TokenLint.Pattern.Bracket

/-!
# Reading patterns

Groups are kept on a stack while they are open, so a fault is always the first one that a reading
from left to right meets.
-/
namespace TokenLint.Pattern
open Reader

/-- What made a group, and what holds again behind it. -/
structure Opener where
  region : Region
  change : FlagChange
  verboseOutside : Bool

/-- A group being read, or the whole pattern. -/
structure Level where
  opener : Option Opener
  /-- Finished branches, last one first. -/
  branches : List Term
  /-- Where the first branch begins. -/
  first : Place
  /-- Where the current branch begins. -/
  start : Place
  /-- Terms of the current branch, last one first. -/
  parts : List Term

namespace Level

def begin (opener : Option Opener) (p : Place) : Level := ⟨opener, [], p, p, []⟩

def push (l : Level) (t : Term) : Level := { l with parts := t :: l.parts }

/-- The current branch, which ends at a place. -/
def branch (l : Level) (stop : Place) : Term :=
  match l.parts with
  | [] => .empty
  | [t] => t
  | parts => .sequence parts.reverse ⟨l.start, stop⟩

/-- Everything read on a level that ends at a place. -/
def term (l : Level) (stop : Place) : Term :=
  match l.branches with
  | [] => l.branch stop
  | branches => .choice (l.branch stop :: branches).reverse ⟨l.first, stop⟩

end Level

def isNameStart (c : Char) : Bool := c == '_' || Text.Property.alphabetic.holds c

def isNamePart (c : Char) : Bool :=
  isNameStart c || c == '.' || c == '[' || c == ']' ||
  [.decimalNumber, .letterNumber, .otherNumber].contains (Text.Category.ofChar c)

/-- A group's name up to the closing angle bracket. -/
def groupName : Reader Unit := do
  if ← atEnd then failHere .unclosedName
  let start ← here
  let cs := (← get).rest.takeWhile (· != '>')
  let good := (cs.take 1).takeWhile isNameStart
  let good := if good.isEmpty then [] else good ++ (cs.drop 1).takeWhile isNamePart
  modify fun s => good.foldl (fun s _ => s.bump) s
  let stop ← here
  match ← current? with
  | none => failHere .unclosedName
  | some c => if c != '>' then failChar .badName
  bump
  if good.isEmpty then fail .emptyName start start
  let region : Region := ⟨start, stop⟩
  match (← get).names.lookup good with
  | some earlier => throw ⟨.duplicateName, region, some earlier⟩
  | none => modify fun s => { s with names := (good, region) :: s.names }

def flag? : Char → Option Flag
  | 'i' => some .ignoreCase
  | 'm' => some .multiLine
  | 's' => some .dotAll
  | 'U' => some .swapGreed
  | 'u' => some .unicode
  | 'R' => some .crlf
  | 'x' => some .verbose
  | _ => none

/-- Flags up to the colon or parenthesis behind them. The negation is `none` in the list of what
was met, which has the last one first. -/
def flagsFrom : Nat → List (Option Flag × Region) → Reader (List (Option Flag × Region))
  | 0, met => return met
  | fuel + 1, met => do
    match ← current? with
    | none => failHere .unfinishedFlags
    | some c =>
      if c == ':' || c == ')' then
        match met with
        | (none, r) :: _ => fail .danglingNegation r.first r.last
        | _ => return met
      else
        let r ← charRegion
        let item ←
          if c == '-' then pure none
          else match flag? c with
            | some f => pure (some f)
            | none => failChar .unknownFlag
        if let some earlier := met.lookup item then
          throw ⟨if item.isNone then .repeatedNegation else .duplicateFlag, r, some earlier⟩
        bump
        flagsFrom fuel ((item, r) :: met)

/-- Flags in order, each turned on before the negation and off behind it. -/
def flagChange : Bool → List (Option Flag × Region) → FlagChange
  | _, [] => []
  | _, (none, _) :: rest => flagChange false rest
  | on, (some f, _) :: rest => (f, on) :: flagChange on rest

/-- Whether a parenthesis is followed by what asks to look around. -/
def lookaround : Reader Bool := do
  for marker in [['?', '='], ['?', '!'], ['?', '<', '='], ['?', '<', '!']] do
    if ← accept marker then return true
  return false

/-- What an opening parenthesis begins: a group, or flags for the rest of the group around. -/
inductive Opening where
  | group (o : Opener)
  | flags (change : FlagChange)

def opening : Reader Opening := do
  let outside := (← get).verbose
  let region ← charRegion
  bump
  space
  if ← lookaround then fail .lookaround region.first (← here)
  let inner ← here
  if (← accept ['?', 'P', '<']) || (← accept ['?', '<']) then
    groupName
    return .group ⟨region, [], outside⟩
  else if ← accept ['?'] then
    if ← atEnd then fail .unclosedGroup region.first region.last
    let met ← flagsFrom ((← get).rest.length + 1) []
    let change := flagChange true met.reverse
    let last ← current?
    bump
    if last == some ')' then
      if met.isEmpty then fail .nothingToRepeat inner inner
      return .flags change
    else return .group ⟨region, change, outside⟩
  else return .group ⟨region, [], outside⟩

/-- Whether a change leaves verbose mode on. -/
def verboseAfter (change : FlagChange) (before : Bool) : Bool :=
  (change.lookup .verbose).getD before

def openGroup (l : Level) (around : List Level) : Reader (Level × List Level) := do
  match ← opening with
  | .flags change =>
    modify fun s => { s with verbose := verboseAfter change s.verbose }
    return (l.push (.flags change), around)
  | .group o =>
    modify fun s => { s with verbose := verboseAfter o.change s.verbose }
    return (.begin (some o) (← here), l :: around)

def closeGroup (l : Level) (around : List Level) : Reader (Level × List Level) := do
  match l.opener, around with
  | some o, outer :: more =>
    let body := l.term (← here)
    modify fun s => { s with verbose := o.verboseOutside }
    bump
    return (outer.push (.group o.change body ⟨o.region.first, ← here⟩), more)
  | _, _ => failChar .unopenedGroup

def nextBranch (l : Level) : Reader Level := do
  let branch := l.branch (← here)
  bump
  return { l with branches := branch :: l.branches, start := ← here, parts := [] }

/-- Where a term that has a region begins; other terms begin where they are asked for. -/
def Term.startOr (p : Place) : Term → Place
  | .letter l => l.region.first
  | .dot r | .shorthand _ _ r | .property _ _ r | .bracketed _ _ r | .repeated _ _ _ r
  | .group _ _ r | .choice _ r | .sequence _ r => r.first
  | _ => p

/-- Takes the term that a repetition is about. -/
def repeatable (l : Level) : Reader (Term × Level) := do
  match l.parts with
  | [] | .empty :: _ | .flags _ :: _ => failHere .nothingToRepeat
  | t :: parts => return (t, { l with parts })

/-- A repetition by one character, perhaps with a question mark behind it. -/
def repeatBy (low : Nat) (high : Option Nat) (l : Level) : Reader Level := do
  let start ← here
  let (t, l) ← repeatable l
  bump
  let _ ← accept ['?']
  return l.push (.repeated low high t ⟨t.startOr start, ← here⟩)

/-- How often a counted repetition repeats, from its brace to before the closing one. -/
def counts (start : Place) : Reader (Nat × Option Nat) := do
  let unclosed : Reader Unit := do
    if ← atEnd then fail .unclosedCount start (← here)
  step
  unclosed
  let low ← decimal
  unclosed
  if (← current?) != some ',' then
    let n ← low
    return (n, some n)
  step
  unclosed
  if (← current?) == some '}' then return (← low, none)
  let n ← low
  let high ← decimal
  return (n, some (← high))

def repeatCounted (l : Level) : Reader Level := do
  let start ← here
  let (t, l) ← repeatable l
  let (low, high) ← counts start
  if (← current?) != some '}' then fail .unclosedCount start (← here)
  step
  let _ ← accept ['?']
  let stop ← here
  if let some n := high then
    if n < low then fail .countRange start stop
  return l.push (.repeated low high t ⟨t.startOr start, stop⟩)

/-- A term of one character or escape. -/
def single (c : Char) : Reader Term := do
  if c == '\\' then
    match ← escape with
    | .letter l => return .letter l
    | .anchor a _ => return .anchor a
    | .shorthand s negated r => return .shorthand s negated r
    | .property q negated r => return .property q negated r
  let r ← charRegion
  bump
  if c == '.' then return .dot r
  else if c == '^' then return .anchor .lineStart
  else if c == '$' then return .anchor .lineEnd
  else return .letter ⟨c, r, false⟩

/-- Reads on in a level that lies in the levels of `around`, innermost first. -/
def levelsFrom : Nat → Level → List Level → Reader Term
  | 0, l, _ => return l.term (← here)
  | fuel + 1, l, around => do
    space
    match ← current? with
    | none =>
      match l.opener with
      | some o => fail .unclosedGroup o.region.first o.region.last
      | none => return l.term (← here)
    | some '(' =>
      let (l, around) ← openGroup l around
      levelsFrom fuel l around
    | some ')' =>
      let (l, around) ← closeGroup l around
      levelsFrom fuel l around
    | some '|' => levelsFrom fuel (← nextBranch l) around
    | some '[' => levelsFrom fuel (l.push (← bracketed)) around
    | some '?' => levelsFrom fuel (← repeatBy 0 (some 1) l) around
    | some '*' => levelsFrom fuel (← repeatBy 0 none l) around
    | some '+' => levelsFrom fuel (← repeatBy 1 none l) around
    | some '{' => levelsFrom fuel (← repeatCounted l) around
    | some c => levelsFrom fuel (l.push (← single c)) around

/-- The term that a pattern says. -/
def Term.parse (pattern : List Char) : Except Defect Term := do
  let s := State.start pattern
  let (t, _) ← (levelsFrom (pattern.length + 1) (.begin none s.place) []).run s
  match t.tooDeep? nestLimit 0 with
  | some r => throw ⟨.tooDeep, r, none⟩
  | none => return t

end TokenLint.Pattern
