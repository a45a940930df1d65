import TokenLint.Codemod
import TokenLint.Source.Literal
import TokenLint.Text.Property

/-!
# Hexadecimal colors

A known color in a literal is replaced by the expression of its token. Other colors stay, and the
literal gets one comment that names them.
-/
namespace TokenLint.Codemod.HexColor
open Source

/-- Token expressions by color. -/
def table : List (String × String) :=
  [("#22c55e", "hsl(var(--success))"), ("#16a34a", "hsl(var(--success))"),
   ("#15803d", "hsl(var(--success))"), ("#f59e0b", "hsl(var(--warning))"),
   ("#f97316", "hsl(var(--warning))"), ("#ef4444", "hsl(var(--destructive))"),
   ("#dc2626", "hsl(var(--destructive))"), ("#0ea5e9", "hsl(var(--info))"),
   ("#38bdf8", "hsl(var(--info))"), ("#3b82f6", "hsl(var(--accent))"),
   ("#2563eb", "hsl(var(--accent))")]

/-- Part of a text: a color, or another character. -/
inductive Piece where
  | plain (c : Char)
  | color (digits : List Char)
  deriving DecidableEq, Repr

/-- How many digits a color has that begins here, behind its `#`: three to eight, and no part of a
word behind them. -/
def digitCount? (cs : List Char) : Option Nat :=
  let n := (cs.takeWhile Text.isHex).length
  if 3 ≤ n && n ≤ 8 && !((cs.drop n).head?.any Text.isWord) then some n else none

/-- The pieces of a text, of which some characters belong to the piece before. -/
def piecesFrom : Nat → List Char → List Piece
  | _, [] => []
  | skipped + 1, _ :: cs => piecesFrom skipped cs
  | 0, c :: cs =>
    if c == '#' then
      match digitCount? cs with
      | some n => .color (cs.take n) :: piecesFrom n cs
      | none => .plain c :: piecesFrom 0 cs
    else .plain c :: piecesFrom 0 cs

def pieces (cs : List Char) : List Piece := piecesFrom 0 cs

/-- A color as the table and the comment spell it. -/
def spelled (digits : List Char) : String := String.ofList ('#' :: digits.map Char.toLower)

def token? (digits : List Char) : Option String := table.lookup (spelled digits)

namespace Piece

def isColor : Piece → Bool
  | plain _ => false
  | color _ => true

/-- Whether a piece has a token in its place. -/
def isKnown : Piece → Bool
  | plain _ => false
  | color ds => (token? ds).isSome

/-- The text with the token in place of a known color. -/
def revised : Piece → List Char
  | plain c => [c]
  | color ds => ((token? ds).map String.toList).getD ('#' :: ds)

/-- The spelling of a color without a token. -/
def unknown? : Piece → Option String
  | plain _ => none
  | color ds => if (token? ds).isSome then none else some (spelled ds)

end Piece

/-- What is found in a literal that has colors. -/
structure Scan where
  /-- The text with tokens for the known colors, if there are any. -/
  revised : Option String
  /-- The other colors, each once. -/
  unknown : List String
  deriving DecidableEq, Repr

def scan (text : String) : Option Scan :=
  let ps := pieces text.toList
  if ps.any Piece.isColor then
    let revised := String.ofList (ps.flatMap Piece.revised)
    some ⟨if ps.any Piece.isKnown then some revised else none,
      Text.distinct (ps.filterMap Piece.unknown?)⟩
  else none

/-- What a comment that names colors ends in. -/
def markerEnd : String := " with semantic design tokens */"

def marker (unknown : List String) : String :=
  "/* TODO(ds-migration): replace " ++ ", ".intercalate unknown ++ markerEnd

/-- Whether a comment stands before an offset. -/
def isMarked (file : SourceFile) (offset : Nat) : Bool :=
  Text.endsWith (Text.trimEnd (file.slice ⟨0, offset⟩)).toList markerEnd.toList

/-- Whether a literal's text is all its own. -/
def isPlain (n : Node) : Bool :=
  n.kind == .string || (n.kind == .template && n.substitutions.isEmpty)

/-- The comment before a literal; as an attribute's value both need braces around them. -/
def mark (inAttribute : Bool) (n : Node) (unknown : List String) : EditPlan :=
  if inAttribute then
    [.insert n.start ("\x7b" ++ marker unknown ++ " "), .insert n.stop "\x7d"]
  else [.insert n.start (marker unknown ++ " ")]

/-- The edits for a literal. -/
def planLiteral (file : SourceFile) (inAttribute : Bool) (n : Node) : EditPlan :=
  if !isPlain n then []
  else
    match scan (file.slice n.content) with
    | none => []
    | some found =>
      (found.revised.map fun text => (⟨n.content, text⟩ : Edit)).toList ++
        if found.unknown.isEmpty || isMarked file n.start then []
        else mark inAttribute n found.unknown

def isInAttribute (v : Visit) : Bool := v.parent.any (·.kind == .jsxAttribute)

def plan (file : SourceFile) : EditPlan :=
  file.root.visits.flatMap fun v => planLiteral file (isInAttribute v) v.node

end TokenLint.Codemod.HexColor

namespace TokenLint

def Codemod.hexColor : Codemod :=
  ⟨"hex-to-semantic", "Replace known hex colors with hsl(var(--token)) and flag unknown ones",
   Codemod.HexColor.plan⟩

end TokenLint
