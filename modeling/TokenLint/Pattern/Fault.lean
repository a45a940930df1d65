import TokenLint.Text

/-!
# Faults of a pattern

A fault is found in a region of the pattern, and some faults point to an earlier region too. The
report repeats the pattern and underlines the regions with carets.
-/
namespace TokenLint.Pattern

/-- A place between characters; lines and columns count from one. -/
structure Place where
  offset : Nat
  line : Nat
  column : Nat
  deriving DecidableEq, Repr

/-- The place behind a character. -/
def Place.after (p : Place) (c : Char) : Place :=
  if c == '\n' then ⟨p.offset + 1, p.line + 1, 1⟩ else ⟨p.offset + 1, p.line, p.column + 1⟩

structure Region where
  first : Place
  last : Place
  deriving DecidableEq, Repr

inductive Fault where
  | setEscape
  | setRange
  | setBoundary
  | unclosedSet
  | decimalTooLarge
  | hexMissing
  | hexTooLarge
  | hexDigit
  | unfinishedEscape
  | unknownEscape
  | danglingNegation
  | duplicateFlag
  | repeatedNegation
  | unfinishedFlags
  | unknownFlag
  | duplicateName
  | emptyName
  | badName
  | unclosedName
  | unclosedGroup
  | unopenedGroup
  | tooDeep
  | countRange
  | countMissing
  | unclosedCount
  | nothingToRepeat
  | unclosedEdge
  | unknownEdge
  | unfinishedEdge
  | badProperty
  | backreference
  | lookaround
  | notUnicode
  | notUtf8
  | unknownProperty
  | unknownPropertyValue
  deriving DecidableEq, Repr

/-- How deep groups and sets may be nested. -/
def nestLimit : Nat := 250

def Fault.message : Fault → String
  | setEscape => "invalid escape sequence found in character class"
  | setRange => "invalid character class range, the start must be <= the end"
  | setBoundary => "invalid range boundary, must be a literal"
  | unclosedSet => "unclosed character class"
  | decimalTooLarge => "decimal literal invalid"
  | hexMissing => "hexadecimal literal empty"
  | hexTooLarge => "hexadecimal literal is not a Unicode scalar value"
  | hexDigit => "invalid hexadecimal digit"
  | unfinishedEscape => "incomplete escape sequence, reached end of pattern prematurely"
  | unknownEscape => "unrecognized escape sequence"
  | danglingNegation => "dangling flag negation operator"
  | duplicateFlag => "duplicate flag"
  | repeatedNegation => "flag negation operator repeated"
  | unfinishedFlags => "expected flag but got end of regex"
  | unknownFlag => "unrecognized flag"
  | duplicateName => "duplicate capture group name"
  | emptyName => "empty capture group name"
  | badName => "invalid capture group character"
  | unclosedName => "unclosed capture group name"
  | unclosedGroup => "unclosed group"
  | unopenedGroup => "unopened group"
  | tooDeep => s!"exceed the maximum number of nested parentheses/brackets ({nestLimit})"
  | countRange => "invalid repetition count range, the start must be <= the end"
  | countMissing => "repetition quantifier expects a valid decimal"
  | unclosedCount => "unclosed counted repetition"
  | nothingToRepeat => "repetition operator missing expression"
  | unclosedEdge =>
    "special word boundary assertion is either unclosed or contains an invalid character"
  | unknownEdge =>
    "unrecognized special word boundary assertion, valid choices are: start, end, start-half " ++
    "or end-half"
  | unfinishedEdge =>
    "found either the beginning of a special word boundary or a bounded repetition on a \\b " ++
    "with an opening brace, but no closing brace"
  | badProperty => "invalid Unicode character class"
  | backreference => "backreferences are not supported"
  | lookaround => "look-around, including look-ahead and look-behind, is not supported"
  | notUnicode => "Unicode not allowed here"
  | notUtf8 => "pattern can match invalid UTF-8"
  | unknownProperty => "Unicode property not found"
  | unknownPropertyValue => "Unicode property value not found"

/-- A fault, where it is, and the earlier region that it conflicts with. -/
structure Defect where
  fault : Fault
  region : Region
  earlier : Option Region := none
  deriving DecidableEq, Repr

namespace Defect

/-- Both regions in the order of their places. -/
def regions (d : Defect) : List Region :=
  match d.earlier with
  | none => [d.region]
  | some r => if r.first.offset < d.region.first.offset then [r, d.region] else [d.region, r]

/-- Carets under regions of one line, from a column on; a region is at least one wide. -/
def carets : Nat → List Region → String
  | _, [] => ""
  | column, r :: rs =>
    let width := max 1 (r.last.column - r.first.column)
    Text.row ' ' (r.first.column - column) ++ Text.row '^' width ++
      carets (max column r.first.column + width) rs

def padLeft (width : Nat) (s : String) : String := Text.row ' ' (width - s.length) ++ s

/-- The lines, each under its number when there are several, with carets below. -/
def notated (d : Defect) (cs : List Char) : String :=
  let lines := Text.lines cs
  let count := if cs.getLast? == some '\n' then lines.length + 1 else lines.length
  let width := if count ≤ 1 then 0 else (toString count).length
  let margin := if width == 0 then 4 else width + 2
  let rows := lines.zipIdx.map fun (line, i) =>
    let label := if width == 0 then "    " else padLeft width (toString (i + 1)) ++ ": "
    let marked := d.regions.filter fun r => r.first.line == i + 1 && r.last.line == i + 1
    let below := if marked.isEmpty then "" else Text.row ' ' margin ++ carets 1 marked ++ "\n"
    label ++ String.ofList line ++ "\n" ++ below
  String.join rows

/-- Where regions of several lines begin and end. -/
def spread (d : Defect) : String :=
  let wide := d.regions.filter fun r => r.first.line != r.last.line
  let notes := wide.map fun r =>
    s!"on line {r.first.line} (column {r.first.column}) through line {r.last.line} " ++
    s!"(column {r.last.column - 1})"
  if notes.isEmpty then "" else "\n".intercalate notes ++ "\n"

/-- The report for a person to read. -/
def report (d : Defect) (pattern : String) : String :=
  let cs := pattern.toList
  let rule := Text.row '~' 79 ++ "\n"
  let body :=
    if cs.contains '\n' then rule ++ d.notated cs ++ rule ++ d.spread else d.notated cs
  "regex parse error:\n" ++ body ++ "error: " ++ d.fault.message

end Defect
end TokenLint.Pattern
