import TokenLint.Source.TreeCursor
import TokenLint.Source.Grammar.Target
import TokenLint.Source.Grammar.Statement

/-!
# Source files

A source file is its text and the tree of its nodes. Every text has a tree: where no statement
can be read, a character is passed over and reading goes on behind it.
-/
namespace TokenLint.Source
open Reader

/-- How a goal is read by readers that know all goals one level deeper. -/
def Grammar.read (g : Grammar) : Grammar
  | .statement => g.statement
  | .expression mode => g.sequence mode
  | .assignment mode => g.assignmentExpr mode
  | .unary => g.unary
  | .access => g.access
  | .typeExpr => g.typeExpr
  | .plainType => g.unionType
  | .target => g.target
  | .element => g.element

/-- Readers for goals nested at most `depth` deep. -/
def Grammar.upTo : Nat → Grammar
  | 0, _ => failure
  | depth + 1, goal => (upTo depth).read goal

/-- The line that names an interpreter. -/
def interpreterLine : Reader (List Node) := do
  let n ← node .other do
    exactly ['#', '!']
    skipWhile (!isLineEnd ·)
    return []
  return [n]

def program (g : Grammar) : Reader (List Node) := do
  let first ← opt interpreterLine
  let unreadable :=
    node .other do
      let _ ← one fun _ => true
      return []
  let body ← many (child .item (g .statement <|> quoted <|> unreadable))
  return first ++ body ++ (← trivia)

/-- The tree of a text. Nesting is bounded by the text's length, since every second goal on the
way down reads a character. -/
def parseChars (cs : List Char) : Node :=
  let c : Cursor := ⟨cs, 0⟩
  let nodes := (program (Grammar.upTo (16 * cs.length + 16)) c).elim [] (·.1)
  .mk .program .item 0 (Text.size cs) nodes

end TokenLint.Source

namespace TokenLint

structure SourceFile where
  text : String
  root : Source.Node

namespace SourceFile

def parse (text : String) : SourceFile := ⟨text, Source.parseChars text.toList⟩

/-- The text of a range; nothing when the range does not fit. -/
def slice (file : SourceFile) (span : Span) : String := Text.slice file.text span

def nodeText (file : SourceFile) (n : Source.Node) : String := file.slice n.span

end SourceFile
end TokenLint
