import TokenLint.Source

/-!
# Indentation
-/
namespace TokenLint.SourceFile

def isIndent (c : Char) : Bool := c == ' ' || c == '\t'

/-- The blanks that begin the line of an offset; an offset inside a character has none. An
offset behind the text counts as its end. -/
def lineIndent? (file : SourceFile) (offset : Nat) : Option String := do
  let cs := file.text.toList
  let before ← Text.take? cs (min offset (Text.size cs))
  let lineStart := (before.reverse.dropWhile (· != '\n')).length
  return String.ofList ((cs.drop lineStart).takeWhile isIndent)

/-- The indentation of the line where a node begins. -/
def indentOf (file : SourceFile) (n : Source.Node) : String :=
  (file.lineIndent? n.start).getD ""

/-- Steps of the indented lines: the smallest so far, or a tab. -/
def indentStep : List (List Char) → Option Nat → String
  | [], smallest => if smallest == some 4 then "    " else "  "
  | line :: rest, smallest =>
    if line.head? == some '\t' then "\t"
    else
      let width := (line.takeWhile (· == ' ')).length
      if 0 < width && width < line.length then
        indentStep rest (some (smallest.elim width (min width)))
      else indentStep rest smallest

/-- One step of indentation: a tab where a line begins with one, four blanks where no indented
line has less, otherwise two. -/
def indentUnit (file : SourceFile) : String := indentStep (Text.lines file.text.toList) none

end TokenLint.SourceFile
