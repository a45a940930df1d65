import TokenLint.Color

/-!
# Utility classes with a value in brackets

A class such as `md:w-[742px]` has variants, a utility and a value that bypasses the design
scale. The value's kind depends on the utility and on what the value is.
-/
namespace TokenLint

/-- Why a bracketed value is not wanted. -/
inductive ArbitraryKind where
  | color
  /-- A size, spacing, radius or offset. -/
  | dimension
  | zIndex
  /-- A line height or letter spacing. -/
  | typography
  deriving DecidableEq, Repr

def ArbitraryKind.messageId : ArbitraryKind → String
  | color => "disallowColor"
  | dimension => "disallowDimension"
  | zIndex => "disallowZIndex"
  | typography => "disallowTypography"

/-- A utility and the value in its brackets. -/
structure BracketedValue where
  utility : String
  value : String
  deriving DecidableEq, Repr

namespace UtilityClass

/-- Utilities whose value may be a color. -/
def colorUtilities : List String :=
  ["bg", "text", "from", "via", "to", "border", "outline", "shadow", "stroke", "fill"]

def typographyUtilities : List String := ["leading", "tracking"]

/-- Every text of one list in front of every text of another. -/
def combine (firsts seconds : List String) : List String :=
  firsts.flatMap fun a => seconds.map (a ++ ·)

/-- The corners and sides of a box. -/
def sides : List String :=
  "" :: combine ["-t", "-r", "-b", "-l"] ["", "l", "r"]

/-- Utilities whose value may be a length. -/
def spacingUtilities : List String :=
  combine ["m", "p", "-m", "-p"] ["", "t", "r", "b", "l", "x", "y"] ++
  combine ["inset", "top", "right", "bottom", "left"] ["", "-x", "-y"] ++
  ["w", "h", "min-w", "max-w", "min-h", "max-h", "gap", "space-x", "space-y"] ++
  combine ["rounded", "border"] sides ++
  ["translate-x", "translate-y", "outline", "basis", "size"]

/-- A bracket behind a dash that holds something. -/
def bracketAt : List Char → Bool
  | '-' :: '[' :: cs =>
    match cs.dropWhile (· != ']') with
    | [] => false
    | _ :: _ => cs.head? != some ']'
  | _ => false

/-- Whether some dash is followed by a bracket that holds something. -/
def hasBracket : List Char → Bool
  | [] => false
  | c :: cs => bracketAt (c :: cs) || hasBracket cs

def hasArbitraryValue (className : String) : Bool := hasBracket className.toList

/-- What follows the last colon; everything when nothing does. -/
def withoutVariants (cs : List Char) : List Char :=
  let segment := (cs.reverse.takeWhile (· != ':')).reverse
  if segment.isEmpty then cs else segment

def parseChars? (cs : List Char) : Option (List Char × List Char) :=
  match Text.cut? ['-', '['] (withoutVariants cs) with
  | none => none
  | some (utility, rest) =>
    if utility.isEmpty || rest.getLast? != some ']' then none else some (utility, rest.dropLast)

/-- The utility and the value of a class that ends in a bracket. -/
def parse? (className : String) : Option BracketedValue :=
  (parseChars? className.toList).map fun (u, v) => ⟨String.ofList u, String.ofList v⟩

/-- One decimal digit or more, and what follows them. -/
def decimals? (cs : List Char) : Option (List Char) :=
  if (cs.takeWhile Text.isDecimal).isEmpty then none else some (cs.dropWhile Text.isDecimal)

def units : List (List Char) :=
  [[], ['p', 'x'], ['r', 'e', 'm'], ['e', 'm'], ['v', 'h'], ['v', 'w'], ['%']]

/-- Nothing, or a point and digits, and then perhaps a unit. -/
def isMeasureEnd : List Char → Bool
  | '.' :: cs => ((decimals? cs).map units.contains).getD false
  | cs => units.contains cs

/-- A number, perhaps negative, with or without a unit of length. -/
def isMeasure : List Char → Bool
  | '-' :: cs => ((decimals? cs).map isMeasureEnd).getD false
  | cs => ((decimals? cs).map isMeasureEnd).getD false

def isDigits (cs : List Char) : Bool := !cs.isEmpty && cs.all Text.isDecimal

/-- The kind of a value under a utility, if it is one that bypasses the scale. -/
def kindOf? (utility value : String) : Option ArbitraryKind :=
  let t := Text.trimChars value.toList
  if colorUtilities.contains utility && (RawColor.classify? value).isSome then some .color
  else if utility == "z" && isDigits t then some .zIndex
  else if typographyUtilities.contains utility && !t.isEmpty then some .typography
  else if spacingUtilities.contains utility && isMeasure t then some .dimension
  else none

/-- The kind of a whole class. -/
def classify? (className : String) : Option ArbitraryKind :=
  (parse? className).bind fun v => kindOf? v.utility v.value

end UtilityClass
end TokenLint
