import TokenLint.Json.Value
import TokenLint.Json.Comment

/-!
# Reading JSON

The first fault found is reported with the line and the column, in bytes, up to which the text
was looked at.
-/
namespace TokenLint.Json

inductive Fault where
  | unfinishedList
  | unfinishedObject
  | unfinishedString
  | unfinishedValue
  | missingColon
  | missingListSeparator
  | missingObjectSeparator
  | unknownWord
  | missingValue
  | badEscape
  | badNumber
  | hugeNumber
  | controlCharacter
  | badKey
  | loneSurrogate
  | trailingComma
  | trailingCharacters
  | unfinishedEscape
  | tooDeep
  deriving DecidableEq, Repr

def Fault.message : Fault → String
  | unfinishedList => "EOF while parsing a list"
  | unfinishedObject => "EOF while parsing an object"
  | unfinishedString => "EOF while parsing a string"
  | unfinishedValue => "EOF while parsing a value"
  | missingColon => "expected `:`"
  | missingListSeparator => "expected `,` or `]`"
  | missingObjectSeparator => "expected `,` or `\x7d`"
  | unknownWord => "expected ident"
  | missingValue => "expected value"
  | badEscape => "invalid escape"
  | badNumber => "invalid number"
  | hugeNumber => "number out of range"
  | controlCharacter => "control character (\\u0000-\\u001F) found while parsing a string"
  | badKey => "key must be a string"
  | loneSurrogate => "lone leading surrogate in hex escape"
  | trailingComma => "trailing comma"
  | trailingCharacters => "trailing characters"
  | unfinishedEscape => "unexpected end of hex escape"
  | tooDeep => "recursion limit exceeded"

/-- A fault, and how many bytes had been looked at when it was found. -/
structure FaultAt where
  fault : Fault
  offset : Nat

/-- A fault and where it is, for a person to read. -/
structure Error where
  fault : Fault
  line : Nat
  column : Nat
  deriving DecidableEq, Repr

def Error.message (e : Error) : String :=
  s!"{e.fault.message} at line {e.line} column {e.column}"

abbrev Reader (α : Type) := Cursor → Except FaultAt (α × Cursor)

namespace Reader

/-- A fault in the bytes read so far. -/
def behind (fault : Fault) (c : Cursor) : Except FaultAt α := .error ⟨fault, c.pos⟩

/-- A fault in the next byte, or at the end of the text. -/
def ahead (fault : Fault) (c : Cursor) : Except FaultAt α :=
  .error ⟨fault, if c.rest.isEmpty then c.pos else c.pos + 1⟩

def isSpace (c : Char) : Bool := c == ' ' || c == '\n' || c == '\t' || c == '\r'

def skipFrom (p : Char → Bool) : List Char → Nat → Cursor
  | [], pos => ⟨[], pos⟩
  | x :: xs, pos => if p x then skipFrom p xs (pos + x.utf8Size) else ⟨x :: xs, pos⟩

def skipSpace (c : Cursor) : Cursor := skipFrom isSpace c.rest c.pos

/-- The rest of a word whose first letter was read. -/
def wordRest (v : Value) : List Char → Reader Value
  | [], c => .ok (v, c)
  | x :: xs, c =>
    match c.rest with
    | [] => behind .unfinishedValue c
    | y :: ys =>
      if y == x then wordRest v xs ⟨ys, c.pos + 1⟩ else .error ⟨.unknownWord, c.pos + 1⟩

/-- The unit that four hexadecimal digits spell. -/
def hexUnit : Reader Nat := fun c =>
  let ds := c.rest.take 4
  if ds.length == 4 && ds.all Text.isHex then
    .ok (ds.foldl (fun n d => 16 * n + digit d) 0, ⟨c.rest.drop 4, c.pos + 4⟩)
  else if Text.size c.rest < 4 then .error ⟨.unfinishedString, c.pos + Text.size c.rest⟩
  else .error ⟨.badEscape, c.pos + 4⟩
where
  digit (d : Char) : Nat :=
    if d.isDigit then d.toNat - 48 else if d.toNat < 97 then d.toNat - 55 else d.toNat - 87

/-- One character that the second half of a pair must begin with. -/
def pairMark (x : Char) : Reader Unit := fun c =>
  match c.rest with
  | [] => behind .unfinishedString c
  | y :: ys =>
    if y == x then .ok ((), ⟨ys, c.pos + 1⟩) else .error ⟨.unfinishedEscape, c.pos + 1⟩

/-- What follows `\u`. -/
def unicodeEscape : Reader Char := fun c => do
  let (n, c) ← hexUnit c
  if 0xDC00 ≤ n && n ≤ 0xDFFF then behind .loneSurrogate c
  else if n < 0xD800 || 0xDBFF < n then return (Char.ofNat n, c)
  else
    let (_, c) ← pairMark '\\' c
    let (_, c) ← pairMark 'u' c
    let (m, c) ← hexUnit c
    if m < 0xDC00 || 0xDFFF < m then behind .loneSurrogate c
    else return (Char.ofNat (0x10000 + (n - 0xD800) * 0x400 + (m - 0xDC00)), c)

/-- What follows a backslash. -/
def escape : Reader Char := fun c =>
  match c.rest with
  | [] => behind .unfinishedString c
  | x :: xs =>
    let next : Cursor := ⟨xs, c.pos + 1⟩
    match x with
    | '"' | '\\' | '/' => .ok (x, next)
    | 'b' => .ok ('\x08', next)
    | 'f' => .ok ('\x0c', next)
    | 'n' => .ok ('\n', next)
    | 'r' => .ok ('\r', next)
    | 't' => .ok ('\t', next)
    | 'u' => unicodeEscape next
    | _ => .error ⟨.badEscape, c.pos + 1⟩

/-- A string behind its opening quote; `done` holds the characters so far, last one first. -/
def stringRest : Nat → List Char → Reader String
  | 0, _, c => behind .unfinishedString c
  | fuel + 1, done, c =>
    match c.rest with
    | [] => behind .unfinishedString c
    | x :: xs =>
      if x == '"' then .ok (String.ofList done.reverse, ⟨xs, c.pos + 1⟩)
      else if x == '\\' then do
        let (y, c) ← escape ⟨xs, c.pos + 1⟩
        stringRest fuel (y :: done) c
      else if x.toNat < 0x20 then .error ⟨.controlCharacter, c.pos + 1⟩
      else stringRest fuel (x :: done) ⟨xs, c.pos + x.utf8Size⟩

def string : Reader String := fun c => stringRest (c.rest.length + 1) [] c

/-- Ten to a power, as a double. -/
def power (n : Nat) : Float := Float.ofScientific 1 false n

/-- A double times ten to a power, in steps that the powers have doubles for. -/
def scaleFrom : Nat → Float → Int → Option Float
  | 0, x, _ => some x
  | steps + 1, x, e =>
    if e.natAbs ≤ 308 then
      if 0 ≤ e then
        let y := x * power e.natAbs
        if y.isInf then none else some y
      else some (x / power e.natAbs)
    else if x == 0 then some x
    else if 0 ≤ e then none
    else scaleFrom steps (x / power 308) (e + 308)

/-- The double for `significand` times ten to a power. -/
def scale (positive : Bool) (significand : Nat) (e : Int) : Reader Value := fun c =>
  match scaleFrom 4 significand.toUInt64.toFloat e with
  | none => behind .hugeNumber c
  | some x => .ok (.double (if positive then x else -x), c)

def digitValue (c : Char) : Nat := c.toNat - 48

def largest : Nat := 0xFFFFFFFFFFFFFFFF

/-- What follows the mark of an exponent. -/
def exponent (positive : Bool) (significand : Nat) (e : Int) : Reader Value := fun c =>
  let (up, c) : Bool × Cursor :=
    match c.rest with
    | '+' :: xs => (true, ⟨xs, c.pos + 1⟩)
    | '-' :: xs => (false, ⟨xs, c.pos + 1⟩)
    | _ => (true, c)
  match c.rest with
  | [] => behind .unfinishedValue c
  | x :: _ =>
    if !x.isDigit then .error ⟨.badNumber, c.pos + 1⟩
    else
      let ds := c.rest.takeWhile Char.isDigit
      -- the first digits whose value no longer fits in 31 bits
      let excess := (List.range (ds.length + 1)).find? fun n =>
        0x7FFFFFFF < (ds.take n).foldl (fun v d => 10 * v + digitValue d) 0
      let next := skipFrom Char.isDigit c.rest c.pos
      match excess with
      | some n =>
        if significand != 0 && up then .error ⟨.hugeNumber, c.pos + n⟩
        else .ok (.double (if positive then 0.0 else -0.0), next)
      | none =>
        let v := ds.foldl (fun v d => 10 * v + digitValue d) 0
        scale positive significand (if up then e + v else e - v) next

def isExponentMark (c : Char) : Bool := c == 'e' || c == 'E'

/-- An exponent, if one follows, then the number is complete. -/
def complete (positive : Bool) (significand : Nat) (e : Int) : Reader Value := fun c =>
  match c.rest with
  | x :: xs =>
    if isExponentMark x then exponent positive significand e ⟨xs, c.pos + 1⟩
    else scale positive significand e c
  | [] => scale positive significand e c

/-- Digits behind the point; those that no longer fit are passed over. -/
def fractionFrom (positive : Bool) : Nat → Int → List Char → Nat → Except FaultAt (Value × Cursor)
  | significand, e, x :: xs, pos =>
    if x.isDigit then
      if largest < 10 * significand + digitValue x then
        complete positive significand e (skipFrom Char.isDigit (x :: xs) pos)
      else fractionFrom positive (10 * significand + digitValue x) (e - 1) xs (pos + 1)
    else complete positive significand e ⟨x :: xs, pos⟩
  | significand, e, [], pos => complete positive significand e ⟨[], pos⟩

/-- What follows a point: one digit at least. -/
def fraction (positive : Bool) (significand : Nat) (e : Int) : Reader Value := fun c =>
  match c.rest with
  | [] => ahead .unfinishedValue c
  | x :: _ =>
    if x.isDigit then fractionFrom positive significand e c.rest c.pos
    else ahead .badNumber c

/-- A whole number that is known to be complete. -/
def whole (positive : Bool) (n : Nat) : Value :=
  if positive then .natural n
  else if n == 0 || 0x8000000000000000 < n then .double (-n.toUInt64.toFloat)
  else .negative (-n)

/-- Further digits of a number that no longer fits in 64 bits. -/
def longFrom (positive : Bool) (significand : Nat) :
    Nat → List Char → Nat → Except FaultAt (Value × Cursor)
  | e, x :: xs, pos =>
    if x.isDigit then longFrom positive significand (e + 1) xs (pos + 1)
    else if x == '.' then fraction positive significand e ⟨xs, pos + 1⟩
    else complete positive significand e ⟨x :: xs, pos⟩
  | e, [], pos => complete positive significand e ⟨[], pos⟩

def wholeFrom (positive : Bool) : Nat → List Char → Nat → Except FaultAt (Value × Cursor)
  | significand, x :: xs, pos =>
    if x.isDigit then
      if largest < 10 * significand + digitValue x then
        longFrom positive significand 0 (x :: xs) pos
      else wholeFrom positive (10 * significand + digitValue x) xs (pos + 1)
    else if x == '.' then fraction positive significand 0 ⟨xs, pos + 1⟩
    else if isExponentMark x then exponent positive significand 0 ⟨xs, pos + 1⟩
    else .ok (whole positive significand, ⟨x :: xs, pos⟩)
  | significand, [], pos => .ok (whole positive significand, ⟨[], pos⟩)

/-- A number behind its sign. -/
def number (positive : Bool) : Reader Value := fun c =>
  match c.rest with
  | [] => behind .unfinishedValue c
  | x :: xs =>
    let next : Cursor := ⟨xs, c.pos + 1⟩
    if x == '0' then
      if (xs.head?.map Char.isDigit).getD false then ahead .badNumber next
      else wholeFrom positive 0 xs (c.pos + 1)
    else if x.isDigit then wholeFrom positive 0 c.rest c.pos
    else .error ⟨.badNumber, c.pos + 1⟩

/-- The items of an array up to its closing bracket. -/
def items (value : Reader Value) : Nat → Bool → List Value → Reader Value
  | 0, _, _, c => behind .unfinishedList c
  | fuel + 1, first, done, c =>
    let c := skipSpace c
    let item (c : Cursor) : Except FaultAt (Value × Cursor) := do
      let (v, c) ← value c
      items value fuel false (v :: done) c
    match c.rest with
    | [] => ahead .unfinishedList c
    | x :: xs =>
      if x == ']' then .ok (.array done.reverse, ⟨xs, c.pos + 1⟩)
      else if first then item c
      else if x == ',' then
        let c := skipSpace ⟨xs, c.pos + 1⟩
        match c.rest with
        | [] => ahead .unfinishedValue c
        | y :: _ => if y == ']' then ahead .trailingComma c else item c
      else ahead .missingListSeparator c

/-- The members of an object up to its closing brace. -/
def members (value : Reader Value) : Nat → Bool → List (String × Value) → Reader Value
  | 0, _, _, c => behind .unfinishedObject c
  | fuel + 1, first, done, c =>
    let c := skipSpace c
    let member (xs : List Char) (pos : Nat) : Except FaultAt (Value × Cursor) := do
      let (key, c) ← string ⟨xs, pos + 1⟩
      let c := skipSpace c
      match c.rest with
      | [] => ahead .unfinishedObject c
      | ':' :: ys =>
        let (v, c) ← value ⟨ys, c.pos + 1⟩
        members value fuel false (Value.insert key v done) c
      | _ => ahead .missingColon c
    match c.rest with
    | [] => ahead .unfinishedObject c
    | x :: xs =>
      if x == '}' then .ok (.object done, ⟨xs, c.pos + 1⟩)
      else if first then
        if x == '"' then member xs c.pos else ahead .badKey c
      else if x == ',' then
        let c := skipSpace ⟨xs, c.pos + 1⟩
        match c.rest with
        | [] => ahead .unfinishedValue c
        | y :: ys =>
          if y == '"' then member ys c.pos
          else if y == '}' then ahead .trailingComma c
          else ahead .badKey c
      else ahead .missingObjectSeparator c

/-- A value that holds others at most `depth - 1` deep. -/
def value : Nat → Reader Value
  | 0, c => ahead .tooDeep c
  | depth + 1, c =>
    let c := skipSpace c
    match c.rest with
    | [] => ahead .unfinishedValue c
    | x :: xs =>
      let next : Cursor := ⟨xs, c.pos + 1⟩
      match x with
      | 'n' => wordRest .null ['u', 'l', 'l'] next
      | 't' => wordRest (.bool true) ['r', 'u', 'e'] next
      | 'f' => wordRest (.bool false) ['a', 'l', 's', 'e'] next
      | '-' => number false next
      | '"' => (string next).map fun (s, c) => (.string s, c)
      | '[' =>
        if depth == 0 then ahead .tooDeep c
        else items (value depth) (xs.length + 1) true [] next
      | '{' =>
        if depth == 0 then ahead .tooDeep c
        else members (value depth) (xs.length + 1) true [] next
      | _ => if x.isDigit then number true c else ahead .missingValue c

/-- A value with nothing but space behind it. -/
def document : Reader Value := fun c => do
  let (v, c) ← value 128 c
  let c := skipSpace c
  if c.rest.isEmpty then return (v, c) else ahead .trailingCharacters c

end Reader

/-- Reads a text as one JSON value. -/
def parse (text : String) : Except Error Value :=
  match Reader.document ⟨text.toList, 0⟩ with
  | .ok (v, _) => .ok v
  | .error e =>
    let (line, column) := Text.position text.toList e.offset
    .error ⟨e.fault, line + 1, column⟩

/-- Reads a JSON value from a text that may hold comments. -/
def parseWithComments (text : String) : Except Error Value := parse (Comment.strip text)

end TokenLint.Json
