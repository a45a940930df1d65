import TokenLint.Text

/-!
# Comments in JSON text

Three kinds of comment are taken out, one kind after the other: `#` at the start of a line or
behind a blank, to the end of the line; `/*` to `*/`; and `//` to the end of the line, where no
colon or backslash precedes it. Strings are not recognised, so a value that holds a comment
mark loses it too.
-/
namespace TokenLint.Json.Comment

/-- Where a scan for `#` stands. -/
inductive HashState where
  | start
  | text
  /-- Behind blanks, which go with a comment that follows them. -/
  | blanks (held : List Char)
  | comment

def hashFrom : HashState → List Char → List Char
  | .blanks held, [] => held.reverse
  | _, [] => []
  | .start, c :: cs =>
    if Text.isBlank c then hashFrom (.blanks [c]) cs
    else if c == '#' then hashFrom .comment cs
    else c :: hashFrom .text cs
  | .text, c :: cs =>
    if Text.isBlank c then hashFrom (.blanks [c]) cs else c :: hashFrom .text cs
  | .blanks held, c :: cs =>
    if Text.isBlank c then hashFrom (.blanks (c :: held)) cs
    else if c == '#' then hashFrom .comment cs
    else held.reverse ++ c :: hashFrom .text cs
  | .comment, c :: cs =>
    if c == '\n' then hashFrom (.blanks [c]) cs else hashFrom .comment cs

/-- Without the comments from `#` to the end of the line, and the blanks before them. -/
def withoutHash (cs : List Char) : List Char := hashFrom .start cs

/-- Inside a comment, holds what was read in case the comment never ends. -/
def blockFrom : Option (List Char) → List Char → List Char
  | none, [] => []
  | none, '/' :: '*' :: cs => blockFrom (some ['*', '/']) cs
  | none, c :: cs => c :: blockFrom none cs
  | some held, [] => held.reverse
  | some _, '*' :: '/' :: cs => blockFrom none cs
  | some held, c :: cs => blockFrom (some (c :: held)) cs

/-- Without the comments from `/*` to `*/`. -/
def withoutBlock (cs : List Char) : List Char := blockFrom none cs

/-- Whether two slashes behind this character begin a comment. -/
def opensBehind : Option Char → Bool
  | none => true
  | some c => c != ':' && c != '\\'

def slashFrom (skipping : Bool) (before : Option Char) : List Char → List Char
  | [] => []
  | c :: cs =>
    if skipping then
      if c == '\n' then c :: slashFrom false (some c) cs else slashFrom true before cs
    else if c == '/' && cs.head? == some '/' && opensBehind before then
      slashFrom true before cs
    else c :: slashFrom false (some c) cs

/-- Without the comments from `//` to the end of the line. -/
def withoutSlash (cs : List Char) : List Char := slashFrom false none cs

/-- Takes all comments out of a text. -/
def strip (text : String) : String :=
  String.ofList (withoutSlash (withoutBlock (withoutHash text.toList)))

end TokenLint.Json.Comment
