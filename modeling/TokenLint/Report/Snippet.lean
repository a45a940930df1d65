import TokenLint.Report.Listing
import TokenLint.Text.Wrap

/-!
# Reports with source lines

A violation is shown with the lines it stands in, the line before and the line behind them. Within
one line it is underlined; over several lines a bracket in the gutter runs along it.
-/
namespace TokenLint.Snippet

/-- Columns of a report. -/
def pageWidth : Nat := 80

/-- Columns that a tab advances to a multiple of. -/
def tabWidth : Nat := 4

/-- Offsets behind the line breaks of a text that begins at an offset. A carriage return is one,
with the line feed behind it if there is one. -/
def lineEnds : Nat → List Char → List Nat
  | _, [] => []
  | pos, '\r' :: '\n' :: cs => (pos + 2) :: lineEnds (pos + 2) cs
  | pos, c :: cs =>
    let next := pos + c.utf8Size
    if c == '\r' || c == '\n' then next :: lineEnds next cs else lineEnds next cs

/-- The part of a text around a violation. -/
structure Excerpt where
  start : Nat
  /-- How many lines there are before it. -/
  linesBefore : Nat
  chars : List Char

def Excerpt.around (cs : List Char) (span : Span) : Excerpt :=
  let ends := lineEnds 0 cs
  let before := (ends.filter (· ≤ span.start)).length
  let start := (0 :: ends)[before - 1]?.getD 0
  let stop := (ends.filter (span.stop < ·))[1]?.getD (Text.size cs)
  ⟨start, before - 1, (Text.slice? cs start stop).getD []⟩

/-- The line and the column, from one, of an offset. -/
def positionOf (cs : List Char) (offset : Nat) : Nat × Nat :=
  let before := (lineEnds 0 cs).filter (· ≤ offset)
  (before.length + 1, offset - before.getLast?.getD 0 + 1)

/-- A line of an excerpt, with the line break counted into its length. -/
structure Line where
  number : Nat
  start : Nat
  length : Nat
  chars : List Char

/-- The lines of an excerpt, from the number of the line that is being read. A carriage return
breaks a line only before a line feed; at the very end it leaves the number as it is. -/
def linesFrom (number start length : Nat) (line : List Char) : List Char → List Line
  | [] => []
  | ['\r'] => [⟨number - 1, start, length + 1, ('\r' :: line).reverse⟩]
  | [c] =>
    if c == '\n' then [⟨number, start, length + 1, line.reverse⟩]
    else [⟨number, start, length + c.utf8Size, (c :: line).reverse⟩]
  | '\r' :: '\n' :: cs =>
    ⟨number, start, length + 2, line.reverse⟩ ::
      linesFrom (number + 1) (start + length + 2) 0 [] cs
  | c :: cs =>
    if c == '\n' then
      ⟨number, start, length + 1, line.reverse⟩ ::
        linesFrom (number + 1) (start + length + 1) 0 [] cs
    else linesFrom number start (length + c.utf8Size) (c :: line) cs

def Excerpt.lines (e : Excerpt) : List Line := linesFrom (e.linesBefore + 1) e.start 0 [] e.chars

namespace Line

def stop (l : Line) : Nat := l.start + l.length

/-- Whether a span begins and ends within a line. -/
def holds (l : Line) (s : Span) : Bool := l.start ≤ s.start && s.stop ≤ l.stop

def holdsStart (l : Line) (s : Span) : Bool := l.start ≤ s.start && s.start < l.stop

def holdsEnd (l : Line) (s : Span) : Bool := l.start < s.stop && s.stop ≤ l.stop

/-- Whether a span goes on before and behind a line. -/
def isInside (l : Line) (s : Span) : Bool := s.start < l.start && l.stop < s.stop

def meets (l : Line) (s : Span) : Bool := l.holdsStart s || l.isInside s || l.holdsEnd s

/-- Whether a span is shown in the gutter of a line. -/
def inGutter (l : Line) (s : Span) : Bool := l.meets s && !(l.holdsStart s && l.holdsEnd s)

end Line

/-- The columns that each character takes in a line. -/
def columns : Nat → List Char → List Nat
  | _, [] => []
  | column, c :: cs =>
    let n := if c == '\t' then tabWidth - column % tabWidth else Text.width c
    n :: columns (column + n) cs

/-- A line with blanks in the place of tabs. -/
def shown (cs : List Char) : List Char :=
  (cs.zip (columns 0 cs)).flatMap fun (c, n) =>
    if c == '\t' then List.replicate n ' ' else [c]

/-- The characters up to an offset, or to the end of the character that it falls into. -/
def upTo : Nat → List Char → List Char
  | _, [] => []
  | 0, _ => []
  | n + 1, c :: cs => c :: upTo (n + 1 - c.utf8Size) cs

/-- The column of an offset in a line. Behind the text there is one more column. -/
def columnAt (l : Line) (offset : Nat) : Nat :=
  let taken := (columns 0 (upTo (offset - l.start) l.chars)).foldl (· + ·) 0
  if Text.size l.chars < offset - l.start then taken + 1 else taken

/-- The bracket in the gutter of a line, when there is a gutter. -/
def gutter (hasGutter : Bool) (l : Line) (s : Span) : String :=
  if !hasGutter then ""
  else if !l.inGutter s then "    "
  else if l.start ≤ s.start then "╭─▶ "
  else if l.holdsEnd s then "├─▶ "
  else "│   "

/-- A row with a line's number, or with none. -/
def row (numberWidth : Nat) (number : Option Nat) (content : String) : String :=
  let digits := (number.map toString).getD ""
  let margin := Text.row ' ' (numberWidth - digits.length)
  let mark := if number.isSome then "│" else "·"
  s!" {margin}{digits} {mark} {content}\n"

/-- The rows that underline a span and tell its label. -/
def underline (numberWidth : Nat) (l : Line) (s : Span) (label : String) : String :=
  let first := columnAt l s.start
  let stop := max (columnAt l s.stop) (first + 1)
  let middle := (first + stop) / 2
  row numberWidth none
    (Text.row ' ' first ++ Text.row '─' (middle - first) ++ "┬" ++
      Text.row '─' (stop - middle - 1)) ++
  row numberWidth none (Text.row ' ' middle ++ s!"╰── {label}")

/-- The rows for a line. -/
def rows (numberWidth : Nat) (hasGutter : Bool) (s : Span) (label : String) (l : Line) : String :=
  row numberWidth (some l.number) (gutter hasGutter l s ++ String.ofList (shown l.chars)) ++
  if !l.meets s then ""
  else if l.holds s then underline numberWidth l s label
  else if l.holdsEnd s then row numberWidth none s!"╰──── {label}"
  else ""

/-- The lines around a span, in a frame that tells where it begins. -/
def frame (file text : String) (s : Span) (label : String) : String :=
  let cs := text.toList
  let lines := (Excerpt.around cs s).lines
  let numberWidth := (toString ((lines.getLast?.map (·.number)).getD 0)).length
  let hasGutter := lines.any fun l => !l.holds s && l.inGutter s
  let margin := Text.row ' ' (numberWidth + 2)
  let (line, column) := positionOf cs s.start
  s!"{margin}╭─[{file}:{line}:{column}]\n" ++
  String.join (lines.map (rows numberWidth hasGutter s label)) ++
  s!"{margin}╰────\n"

/-- What is said of a violation above its lines. -/
def headline (v : Violation) : String :=
  Text.Wrap.fill (pageWidth - 2) "  × " "  │ " v.headline ++ "\n"

/-- What is said below them. -/
def advice (v : Violation) : String :=
  v.suggestion.elim "" fun help =>
    Text.Wrap.fill (pageWidth - 2) "  help: " (Text.row ' ' 8) help ++ "\n"

/-- A violation with its lines, or without them when there is no text to take them from. -/
def describe (text : Option String) (v : Violation) : String :=
  let span : Span := ⟨v.location.offset, v.location.offset + v.location.length⟩
  headline v ++ text.elim "" (frame v.location.file · span v.rule) ++ advice v

end TokenLint.Snippet

namespace TokenLint

/-- The report with source lines, taken from the texts of the files. -/
def Report.pretty (r : Report) (textOf : String → Option String) : String :=
  String.join (r.violations.map fun v =>
    Snippet.describe (textOf v.location.file) v ++ "\n") ++ r.summary

end TokenLint
