import TokenLint.Color
import TokenLint.Text.Property

/-!
# What the guard finds in a text

The guard reads a text without parsing it. It finds hexadecimal colors other than black and
white, and bracketed values with a color or a size in pixels. Of a bracketed value it tells what
stands before the end of the last color or size in it.
-/
namespace TokenLint.Guard

inductive Kind where
  | hex
  | arbitrary
  deriving DecidableEq, Repr

def Kind.name : Kind → String
  | hex => "hex"
  | arbitrary => "arbitrary"

structure Hit where
  file : String
  kind : Kind
  value : String
  deriving DecidableEq, Repr

/-- One line for a list. -/
def Hit.line (h : Hit) : String := s!"- [{h.kind.name}] {h.value} -> {h.file}"

/-- Black and white in their short spelling are no hits. -/
def allowedHexes : List String := ["#000", "#fff"]

/-- Whether characters behind a `#` are the digits of a color: as many as a color has, and no part
of a word behind them. -/
def isColorTail (cs : List Char) : Bool :=
  let n := (cs.takeWhile Text.isHex).length
  [3, 4, 6, 8].contains n && !((cs.drop n).head?.any Text.isWord)

/-- The hexadecimal colors of a text, in order. -/
def hexColors : List Char → List (List Char)
  | [] => []
  | c :: cs =>
    if c == '#' && isColorTail cs then (c :: cs.takeWhile Text.isHex) :: hexColors cs
    else hexColors cs

/-- How many characters the color or the unit takes that begins the text. Of a color in digits at
most eight count. -/
def triggerLength? (cs : List Char) : Option Nat :=
  let opens (name : String) := Text.startsWith cs name.toList
  match cs with
  | '#' :: ds =>
    let n := min 8 (ds.takeWhile Text.isHex).length
    if 3 ≤ n then some (n + 1) else none
  | _ =>
    if opens "rgb(" || opens "hsl(" then some 4
    else if opens "rgba(" || opens "hsla(" then some 5
    else if opens "px" then some 2
    else none

/-- How many characters there are up to the end of the trigger that begins last. -/
def lastTrigger? : List Char → Option Nat
  | [] => none
  | c :: cs => ((lastTrigger? cs).map (· + 1)).or (triggerLength? (c :: cs))

/-- The bracketed values of a text of which some characters belong to the value before. -/
def bracketedFrom : Nat → List Char → List (List Char)
  | _, [] => []
  | skipped + 1, _ :: cs => bracketedFrom skipped cs
  | 0, c :: cs =>
    if c == '[' then
      match lastTrigger? (cs.takeWhile (· != ']')) with
      | some n => (c :: cs.take n) :: bracketedFrom n cs
      | none => bracketedFrom 0 cs
    else bracketedFrom 0 cs

/-- The bracketed values with a color or a size in pixels, in order. -/
def bracketed (cs : List Char) : List (List Char) := bracketedFrom 0 cs

/-- The literal of a color that the guard reports. -/
def reportedHex? (color : List Char) : Option String :=
  match RawColor.classifyChars color with
  | some (.hex literal) =>
    if allowedHexes.contains (Text.lower literal) then none else some literal
  | _ => none

/-- Everything the guard finds in a file's text: colors first, then bracketed values. -/
def scan (file text : String) : List Hit :=
  let cs := text.toList
  ((hexColors cs).filterMap reportedHex?).map (⟨file, .hex, ·⟩) ++
    (bracketed cs).map fun value => ⟨file, .arbitrary, String.ofList value⟩

end TokenLint.Guard
