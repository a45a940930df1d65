/-!
# Path globs

`?` and `*` stay within a path segment, `**` spans segments where it fills one, `[..]` is a set
of characters, `{..}` a choice, and a backslash takes the next character as it is.
-/
namespace TokenLint.Glob

inductive Part where
  | char (c : Char)
  /-- One byte within a segment. -/
  | one
  /-- Any bytes within a segment. -/
  | many
  /-- Any leading segments. -/
  | deepStart
  /-- Any trailing segments. -/
  | deepEnd
  /-- Any segments in between. -/
  | deepBetween
  | set (negated : Bool) (ranges : List (Char × Char))
  | choice (branches : List (List Part))

inductive Fault where
  | unclosedSet
  | badRange (low high : Char)
  | unopenedChoice
  | unclosedChoice
  | danglingEscape
  deriving DecidableEq, Repr

def Fault.message : Fault → String
  | unclosedSet => "unclosed character class; missing ']'"
  | badRange low high => s!"invalid range; '{low}' > '{high}'"
  | unopenedChoice =>
    "unopened alternate group; missing '\x7b' (maybe escape '\x7d' with '[\x7d]'?)"
  | unclosedChoice =>
    "unclosed alternate group; missing '\x7d' (maybe escape '\x7b' with '[\x7b]'?)"
  | danglingEscape => "dangling '\\'"

/-- A pattern that is no glob, and why. -/
structure Error where
  pattern : String
  fault : Fault
  deriving DecidableEq, Repr

def Error.message (e : Error) : String :=
  s!"error parsing glob '{e.pattern}': {e.fault.message}"

/-- A group under construction: the branches before the current one, last one first, and the
current branch, last part first. -/
structure Frame where
  finished : List (List Part)
  current : List Part

/-- The group being read, and the groups around it. -/
structure State where
  frame : Frame
  outer : List Frame

namespace State

def push (s : State) (p : Part) : State :=
  { s with frame := { s.frame with current := p :: s.frame.current } }

def pushAll (s : State) (ps : List Part) : State := ps.foldl push s

/-- Replaces the last part of the current branch. -/
def exchange (s : State) (f : Part → Part) : State :=
  match s.frame.current with
  | [] => s
  | p :: ps => { s with frame := { s.frame with current := f p :: ps } }

def openGroup (s : State) : State := ⟨⟨[], []⟩, s.frame :: s.outer⟩

def nextBranch (s : State) : State :=
  { s with frame := ⟨s.frame.current.reverse :: s.frame.finished, []⟩ }

def closeGroup? (s : State) : Option State :=
  match s.outer with
  | [] => none
  | f :: fs =>
    let branches := (s.frame.current.reverse :: s.frame.finished).reverse
    some (push ⟨f, fs⟩ (.choice branches))

end State

/-- A set behind its opening bracket, and what follows it. A closing bracket or a dash that
comes first is a member; so is a dash that comes last. -/
def parseSet (first inRange : Bool) : List (Char × Char) → List Char →
    Except Fault (List (Char × Char) × List Char)
  | _, [] => .error .unclosedSet
  | ranges, c :: cs =>
    if c == ']' && !first then
      .ok ((if inRange then ('-', '-') :: ranges else ranges).reverse, cs)
    else if c == '-' && !first && !inRange then parseSet false true ranges cs
    else if inRange then
      match ranges with
      | (low, _) :: rest =>
        if c < low then .error (.badRange low c)
        else parseSet false false ((low, c) :: rest) cs
      | [] => parseSet false false [(c, c)] cs
    else parseSet false false ((c, c) :: ranges) cs

def isSlash (c : Option Char) : Bool := c == some '/'

/-- Two stars, with the character before them and the characters behind. -/
def doubleStar (before : Option Char) (cs : List Char) (s : State) : State × List Char :=
  let stars := (s.pushAll [.many, .many], cs)
  let grouped := !s.outer.isEmpty
  if s.frame.current.isEmpty then
    match cs with
    | [] => (s.push .deepStart, [])
    | '/' :: rest => (s.push .deepStart, rest)
    | _ => stars
  else if !isSlash before && !(grouped && (before == some ',' || before == some '{')) then stars
  else
    let final (p : Part) : Part :=
      match p with
      | .deepStart => .deepStart
      | .deepEnd => .deepEnd
      | _ => .deepEnd
    let middle (p : Part) : Part :=
      match p with
      | .deepStart => .deepStart
      | .deepEnd => .deepEnd
      | _ => .deepBetween
    match cs with
    | [] => (s.exchange final, [])
    | '/' :: rest => (s.exchange middle, rest)
    | c :: _ =>
      if grouped && (c == ',' || c == '}') then (s.exchange final, cs) else stars

/-- What an opening bracket means. -/
inductive Brackets where
  /-- It opens a set, and a set that is not closed is a fault. -/
  | closed
  /-- It opens a set; if that is not closed, this bracket and those behind it are plain. -/
  | lenient
  | plain
  deriving DecidableEq, Repr

/-- A set behind its bracket, with the sign that negates it. -/
def parseWholeSet (cs : List Char) : Except Fault (Part × List Char) :=
  let (negated, body) :=
    match cs with
    | '!' :: rest => (true, rest)
    | '^' :: rest => (true, rest)
    | _ => (false, cs)
  match parseSet true false [] body with
  | .error f => .error f
  | .ok (ranges, rest) => .ok (.set negated ranges, rest)

/-- Reads a pattern; `before` is the character before the rest. -/
def parseFrom : Nat → Brackets → Option Char → List Char → State → Except Fault State
  | 0, _, _, _, s => .ok s
  | _ + 1, _, _, [], s => .ok s
  | fuel + 1, brackets, before, c :: cs, s =>
    match c with
    | '?' => parseFrom fuel brackets (some c) cs (s.push .one)
    | '*' =>
      match cs with
      | '*' :: rest =>
        let (s, rest') := doubleStar before rest s
        parseFrom fuel brackets (if rest'.length < rest.length then some '/' else some '*') rest' s
      | _ => parseFrom fuel brackets (some c) cs (s.push .many)
    | '[' =>
      if brackets == .plain then parseFrom fuel .plain (some c) cs (s.push (.char c))
      else
        match parseWholeSet cs with
        | .ok (part, rest) => parseFrom fuel brackets (some ']') rest (s.push part)
        | .error fault =>
          if fault == .unclosedSet && brackets == .lenient then
            parseFrom fuel .plain (some c) cs (s.push (.char c))
          else .error fault
    | '{' => parseFrom fuel brackets (some c) cs s.openGroup
    | '}' =>
      match s.closeGroup? with
      | none => .error .unopenedChoice
      | some s => parseFrom fuel brackets (some c) cs s
    | ',' =>
      parseFrom fuel brackets (some c) cs
        (if s.outer.isEmpty then s.push (.char c) else s.nextBranch)
    | '\\' =>
      match cs with
      | [] => .error .danglingEscape
      | x :: rest => parseFrom fuel brackets (some x) rest (s.push (.char x))
    | _ => parseFrom fuel brackets (some c) cs (s.push (.char c))

/-- The parts of a pattern. -/
def parse (brackets : Brackets) (pattern : String) : Except Error (List Part) :=
  let cs := pattern.toList
  match parseFrom cs.length brackets none cs ⟨⟨[], []⟩, []⟩ with
  | .error f => .error ⟨pattern, f⟩
  | .ok s => if s.outer.isEmpty then .ok s.frame.current.reverse
    else .error ⟨pattern, .unclosedChoice⟩

end TokenLint.Glob
