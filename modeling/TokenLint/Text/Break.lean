import TokenLint.Text.BreakClass

/-!
# Where a line may break

The default rules of the Unicode line breaking algorithm. Whether a line may break before a
character depends on its class, on the class of the last character before it that is no blank,
and on what stands between the two. Marks belong to the character before them.
-/
namespace TokenLint.Text.Break
open BreakClass

/-- What has been read, as far as the rules look at it. -/
structure Context where
  /-- The last character that is no blank, marks left out. -/
  base : Option BreakClass := none
  /-- Whether blanks follow it. -/
  spaced : Bool := false
  /-- Whether the last character joins what follows. -/
  joining : Bool := false
  /-- Whether it is the first of a pair of regional indicators. -/
  opensPair : Bool := false
  /-- Whether it is a hyphen or the like behind a Hebrew letter. -/
  hebrewHyphen : Bool := false

/-- Classes that end a line. -/
def isLineEnd (c : BreakClass) : Bool :=
  [mandatoryBreak, carriageReturn, lineFeed, nextLine].contains c

def isMark (c : BreakClass) : Bool := c == combiningMark || c == zeroWidthJoiner

/-- Whether marks behind a class belong to it. -/
def takesMarks (c : BreakClass) : Bool := !isLineEnd c && c != zeroWidthSpace

def isLetter (c : BreakClass) : Bool := c == alphabetic || c == hebrewLetter

def isHangul (c : BreakClass) : Bool :=
  [hangulLead, hangulVowel, hangulTail, hangulSyllable].contains c

/-- Pairs of classes of which the second stays behind the first, when nothing is between them:
numbers, letters, syllables and the signs at either side. -/
def staysBehind (a b : BreakClass) : Bool :=
  let pictorial (c : BreakClass) := [ideograph, emojiBase, emojiModifier].contains c
  let sign (c : BreakClass) := c == prefixNumeric || c == postfixNumeric
  let closing (c : BreakClass) := c == closePunctuation || c == closeParenthesis
  (isLetter a && b == numeric) || (a == numeric && isLetter b) ||
  (a == prefixNumeric && pictorial b) || (pictorial a && b == postfixNumeric) ||
  (sign a && isLetter b) || (isLetter a && sign b) ||
  ((closing a || a == numeric) && sign b) ||
  (sign a && (b == openPunctuation || b == numeric)) ||
  ([hyphen, infixNumeric, numeric, slash].contains a && b == numeric) ||
  (a == hangulLead && [hangulLead, hangulVowel, hangulSyllable].contains b) ||
  ([hangulVowel, hangulSyllable].contains a && [hangulVowel, hangulTail].contains b) ||
  (a == hangulTail && b == hangulTail) ||
  (isHangul a && b == postfixNumeric) || (a == prefixNumeric && isHangul b) ||
  (isLetter a && isLetter b) || (a == infixNumeric && isLetter b) ||
  ((isLetter a || a == numeric) && b == openPunctuation) ||
  (a == closeParenthesis && (isLetter b || b == numeric)) ||
  (a == emojiBase && b == emojiModifier)

/-- Whether a line may break between classes with nothing between them. -/
def mayPart (x : Context) (a b : BreakClass) : Bool :=
  if a == quotation || b == quotation then false
  else if a == contingentBreak || b == contingentBreak then true
  else if [breakAfter, hyphen, nonstarter].contains b || a == breakBefore then false
  else if x.hebrewHyphen || (a == slash && b == hebrewLetter) || b == inseparable then false
  else if a == regionalIndicator && b == regionalIndicator then !x.opensPair
  else !staysBehind a b

/-- Whether a line may break between a class and one behind it, perhaps with blanks in between. -/
def mayBreakBetween (x : Context) (a b : BreakClass) : Bool :=
  if b == wordJoiner then false
  else if !x.spaced && (a == wordJoiner || a == glue) then false
  else if !x.spaced && b == glue && a != breakAfter && a != hyphen then false
  else if [closePunctuation, closeParenthesis, exclamation, infixNumeric, slash].contains b then
    false
  else if a == openPunctuation then false
  else if a == quotation && b == openPunctuation then false
  else if (a == closePunctuation || a == closeParenthesis) && b == nonstarter then false
  else if a == breakBoth && b == breakBoth then false
  else x.spaced || mayPart x a b

/-- Whether a line may break before a class. -/
def mayBreakBefore (x : Context) (b : BreakClass) : Bool :=
  match x.base with
  | none => x.spaced && !isLineEnd b && b != space && b != zeroWidthSpace
  | some a =>
    if isLineEnd a && !x.spaced then !(a == carriageReturn && b == lineFeed)
    else if isLineEnd b || b == space || b == zeroWidthSpace then false
    else if a == zeroWidthSpace then true
    else if x.joining then false
    else mayBreakBetween x a b

/-- The context behind a class. -/
def Context.step (x : Context) (c : BreakClass) : Context :=
  if c == space then { x with spaced := true, joining := false }
  else
    { base := some c
      opensPair := c == regionalIndicator &&
        !(x.base == some regionalIndicator && !x.spaced && x.opensPair)
      hebrewHyphen := x.base == some hebrewLetter && !x.spaced &&
        (c == hyphen || c == breakAfter) }

/-- Whether a mark belongs to what is before it. -/
def Context.takes (x : Context) (c : BreakClass) : Bool :=
  isMark c && !x.spaced && x.base.any takesMarks

/-- For each class whether a line may break before it. -/
def before (x : Context) : List BreakClass → List Bool
  | [] => []
  | c :: cs =>
    if x.takes c then false :: before { x with joining := c == zeroWidthJoiner } cs
    else
      let resolved := if isMark c then alphabetic else c
      mayBreakBefore x resolved ::
        before { x.step resolved with joining := c == zeroWidthJoiner } cs

/-- For each character of a line whether the line may break before it. -/
def points (cs : List Char) : List Bool := before {} (cs.map BreakClass.ofChar)

end TokenLint.Text.Break
