import TokenLint.Text

/-!
# Raw color literals

A text is a raw color when, without the blanks around it, it is a hexadecimal color or a color
function with literal arguments. A text that refers to a design token never is.
-/
namespace TokenLint

/-- A raw color, as it was written. -/
inductive RawColor where
  | hex (literal : String)
  | rgb (literal : String)
  | hsl (literal : String)
  deriving DecidableEq, Repr

namespace RawColor

def literal : RawColor → String
  | hex s | rgb s | hsl s => s

/-- What a reference to a design token begins with. -/
def tokenReference : String := "var(--"

/-- `#` and three, four, six or eight hexadecimal digits. -/
def isHexColor : List Char → Bool
  | '#' :: ds => [3, 4, 6, 8].contains ds.length && ds.all Text.isHex
  | _ => false

/-- Parentheses around a text that has none closing. -/
def isArguments : List Char → Bool
  | '(' :: cs => cs.getLast? == some ')' && !cs.dropLast.contains ')'
  | _ => false

/-- A letter in any case, the long s included. -/
def isLetter (letter c : Char) : Bool :=
  c.toLower == letter || (letter == 's' && c == 'ſ')

/-- The letters of a function name, perhaps an `a`, then its arguments. -/
def isFunction : List Char → List Char → Bool
  | [], c :: cs => if isLetter 'a' c then isArguments cs else isArguments (c :: cs)
  | letter :: name, c :: cs => isLetter letter c && isFunction name cs
  | _, [] => false

def classifyChars (cs : List Char) : Option RawColor :=
  let t := Text.trimChars cs
  if t.isEmpty || Text.contains t tokenReference.toList then none
  else if isHexColor t then some (.hex (String.ofList t))
  else if isFunction ['r', 'g', 'b'] t then some (.rgb (String.ofList t))
  else if isFunction ['h', 's', 'l'] t then some (.hsl (String.ofList t))
  else none

/-- The raw color that a text is. -/
def classify? (s : String) : Option RawColor := classifyChars s.toList

end RawColor
end TokenLint
