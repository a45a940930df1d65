import TokenLint.Text.Break
import TokenLint.Text.Property
import TokenLint.Text.Width

/-!
# Text in lines of a limited width

A line is filled with as many words as fit. A word ends where a line may break and behind a hyphen
inside a word, and a word that fits no line is cut.
-/
namespace TokenLint.Text.Wrap

/-- Characters that stay together, and the blanks behind them, which a line may end without. -/
structure Word where
  chars : List Char
  blanks : Nat
  deriving DecidableEq, Repr

def Word.width (w : Word) : Nat := widthOf w.chars

def Word.ofChars (cs : List Char) : Word :=
  let chars := dropEndWhile (· == ' ') cs
  ⟨chars, cs.length - chars.length⟩

/-- Breaks behind a hyphen are found in the words, and those behind a soft hyphen are not used. -/
def isHyphen (c : Char) : Bool := c == '-' || c == '\u00AD'

/-- Cuts characters before those that are marked. -/
def cutAt : List Char → List (Char × Bool) → List (List Char)
  | piece, [] => if piece.isEmpty then [] else [piece.reverse]
  | piece, (c, marked) :: rest =>
    if marked && !piece.isEmpty && !(piece.head?.any isHyphen) then
      piece.reverse :: cutAt [c] rest
    else cutAt (c :: piece) rest

/-- The pieces of a line between the places where it may break. -/
def segments (cs : List Char) : List (List Char) := cutAt [] (cs.zip (Break.points cs))

def isAlphanumeric (c : Char) : Bool :=
  Property.alphabetic.holds c || (Category.ofChar c).isNumber

/-- Cuts characters behind each hyphen between two that are letters or digits. -/
def cutHyphens : List Char → List Char → List (List Char)
  | piece, [] => [piece.reverse]
  | piece, '-' :: c :: cs =>
    if piece.head?.any isAlphanumeric && isAlphanumeric c then
      ('-' :: piece).reverse :: cutHyphens [] (c :: cs)
    else cutHyphens ('-' :: piece) (c :: cs)
  | piece, c :: cs => cutHyphens (c :: piece) cs

/-- Pieces of characters that are no wider than a limit, or single characters. -/
def cutWide (limit : Nat) : List Char → Nat → List Char → List (List Char)
  | piece, _, [] => if piece.isEmpty then [] else [piece.reverse]
  | piece, taken, c :: cs =>
    if taken > 0 && taken + Text.width c > limit then
      piece.reverse :: cutWide limit [c] (Text.width c) cs
    else cutWide limit (c :: piece) (taken + Text.width c) cs

/-- Pieces as words, the last of which keeps the blanks. -/
def wordsOf (blanks : Nat) : List (List Char) → List Word
  | [] => []
  | [piece] => [⟨piece, blanks⟩]
  | piece :: pieces => ⟨piece, 0⟩ :: wordsOf blanks pieces

def splitHyphens (w : Word) : List Word := wordsOf w.blanks (cutHyphens [] w.chars)

def splitWide (limit : Nat) (w : Word) : List Word :=
  if w.width > limit then wordsOf w.blanks (cutWide limit [] 0 w.chars) else [w]

/-- The words of a line, none wider than a limit if it can be cut. -/
def words (limit : Nat) (cs : List Char) : List Word :=
  (((segments cs).map Word.ofChars).flatMap splitHyphens).flatMap (splitWide limit)

/-- Fills lines with words; `line` is the one being filled, last word first, and its width. -/
def fillFrom (limit : Nat) : List Word → Nat → List Word → List (List Word)
  | line, _, [] => [line.reverse]
  | line, taken, w :: ws =>
    if taken + w.width > limit && !line.isEmpty then
      line.reverse :: fillFrom limit [w] (w.width + w.blanks) ws
    else fillFrom limit (w :: line) (taken + w.width + w.blanks) ws

/-- The characters of a line without the blanks behind its last word. -/
def lineChars : List Word → List Char
  | [] => []
  | [w] => w.chars
  | w :: ws => w.chars ++ List.replicate w.blanks ' ' ++ lineChars ws

/-- The lines of a text, none wider than a limit if its words allow it. -/
def lines (limit : Nat) (text : String) : List String :=
  (splitOn '\n' text.toList).flatMap fun cs =>
    (fillFrom limit [] 0 (words limit cs)).map fun line => String.ofList (lineChars line)

/-- A text in lines of a width, the first of which begins with one mark and the others with
another of the same width. -/
def fill (width : Nat) (first others : String) (text : String) : String :=
  match lines (width - widthOf first.toList) text with
  | [] => first
  | line :: rest => "\n".intercalate ((first ++ line) :: rest.map (others ++ ·))

end TokenLint.Text.Wrap
