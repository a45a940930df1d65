import TokenLint.Pattern.Reader

/-!
# Escapes of a pattern
-/
namespace TokenLint.Pattern
open Reader

/-- Characters with a meaning of their own. -/
def isMeta (c : Char) : Bool :=
  ['\\', '.', '+', '*', '?', '(', ')', '|', '[', ']', '{', '}', '^', '$', '#', '&', '-',
    '~'].contains c

/-- Characters that a backslash does not change. -/
def isEscapable (c : Char) : Bool :=
  isMeta c || (c.toNat < 128 && !c.isAlphanum && c != '<' && c != '>')

def hexNumber (ds : List Char) : Nat :=
  ds.foldl (fun n c =>
    16 * n + (if c.isDigit then c.toNat - 48 else c.toLower.toNat - 87)) 0

def char? (n : Nat) : Option Char :=
  if h : n.isValidChar then some (Char.ofNatAux n h) else none

/-- A fixed number of hexadecimal digits. -/
def hexDigits : Nat → Bool → Reader (List Char)
  | 0, _ => return []
  | n + 1, isFirst => do
    unless isFirst do
      step
      if ← atEnd then failHere .unfinishedEscape
    match ← current? with
    | none => failHere .unfinishedEscape
    | some c =>
      if !Text.isHex c then failChar .hexDigit
      return c :: (← hexDigits n false)

/-- A character spelled by a fixed number of digits; `start` is where the escape began. -/
def fixedHex (start : Place) (count : Nat) : Reader Letter := do
  let first ← here
  let ds ← hexDigits count true
  step
  let last ← here
  match char? (hexNumber ds) with
  | none => fail .hexTooLarge first last
  | some c => return ⟨c, ⟨start, last⟩, count == 2⟩

/-- A character spelled by digits in braces. -/
def bracedHex (start : Place) : Reader Letter := do
  let brace ← here
  let first := (← charRegion).last
  step
  let ds ← takeWhile Text.isHex
  let last ← here
  match ← current? with
  | none => fail .unfinishedEscape brace last
  | some c => if c != '}' then failChar .hexDigit
  step
  let behind ← here
  if ds.isEmpty then fail .hexMissing brace behind
  match char? (hexNumber ds) with
  | none => fail .hexTooLarge first last
  | some c => return ⟨c, ⟨start, behind⟩, false⟩

def hex (start : Place) (digits : Nat) : Reader Letter := do
  step
  match ← current? with
  | none => failHere .unfinishedEscape
  | some '{' => bracedHex start
  | some _ => fixedHex start digits

/-- What a name in braces asks for: an operator is looked for in the order given. -/
def propertyQuery (name : List Char) : PropertyQuery :=
  match [['!', '='], [':'], ['=']].findSome? (Text.cut? · name) with
  | some (n, v) => .valued (String.ofList n) (String.ofList v)
  | none => .plain (String.ofList name)

def property (start : Place) (negated : Bool) : Reader Atom := do
  step
  match ← current? with
  | none => failHere .unfinishedEscape
  | some '{' =>
    step
    let name ← takeWhile (· != '}')
    if ← atEnd then failHere .unfinishedEscape
    bump
    return .property (propertyQuery name) negated ⟨start, ← here⟩
  | some c =>
    if c == '\\' then failChar .badProperty
    step
    return .property (.plain c.toString) negated ⟨start, ← here⟩

def isEdgeLetter (c : Char) : Bool := c.isAlpha || c == '-'

/-- The name of a special edge in braces, behind `\b`; without one nothing is read. -/
def edgeName? (start : Place) : Reader (Option Anchor) := do
  let before ← get
  let brace := before.place
  step
  if ← atEnd then fail .unfinishedEdge start (← here)
  let first ← here
  if !((← current?).map isEdgeLetter).getD false then
    set before
    return none
  let name ← takeWhile isEdgeLetter
  let last ← here
  if (← current?) != some '}' then fail .unclosedEdge brace last
  bump
  match String.ofList name with
  | "start" => return some .wordStart
  | "end" => return some .wordEnd
  | "start-half" => return some .wordStartHalf
  | "end-half" => return some .wordEndHalf
  | _ => fail .unknownEdge first last

def wordEdge (start : Place) : Reader Atom := do
  let plain : Atom := .anchor .wordEdge ⟨start, ← here⟩
  if (← current?) != some '{' then return plain
  match ← edgeName? start with
  | none => return plain
  | some a => return .anchor a ⟨start, ← here⟩

/-- The character that a letter stands for behind a backslash. -/
def control? : Char → Option Char
  | 'a' => some '\x07'
  | 'f' => some '\x0c'
  | 't' => some '\t'
  | 'n' => some '\n'
  | 'r' => some '\r'
  | 'v' => some '\x0b'
  | _ => none

/-- The anchor that a character stands for behind a backslash. -/
def anchor? : Char → Option Anchor
  | 'A' => some .textStart
  | 'z' => some .textEnd
  | 'B' => some .noWordEdge
  | '<' => some .wordStart
  | '>' => some .wordEnd
  | _ => none

def shorthand? : Char → Option (Shorthand × Bool)
  | 'd' => some (.digit, false)
  | 'D' => some (.digit, true)
  | 's' => some (.space, false)
  | 'S' => some (.space, true)
  | 'w' => some (.word, false)
  | 'W' => some (.word, true)
  | _ => none

/-- What one character behind a backslash stands for, once it has been passed. -/
def simpleEscape (start : Place) (c : Char) : Reader Atom := do
  let region : Region := ⟨start, ← here⟩
  if let some (s, negated) := shorthand? c then return .shorthand s negated region
  if isEscapable c then return .letter ⟨c, region, false⟩
  if let some x := control? c then return .letter ⟨x, region, false⟩
  if let some a := anchor? c then return .anchor a region
  if c == 'b' then wordEdge start else fail .unknownEscape start region.last

/-- A backslash and what follows. -/
def escape : Reader Atom := do
  let start ← here
  bump
  match ← current? with
  | none => fail .unfinishedEscape start (← here)
  | some c =>
    if c.isDigit then fail .backreference start (← charRegion).last
    else if c == 'x' then return .letter (← hex start 2)
    else if c == 'u' then return .letter (← hex start 4)
    else if c == 'U' then return .letter (← hex start 8)
    else if c == 'p' then property start false
    else if c == 'P' then property start true
    else do
      bump
      simpleEscape start c

end TokenLint.Pattern
