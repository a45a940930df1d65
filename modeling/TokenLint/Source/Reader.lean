import TokenLint.Source.Node

/-!
# Reading a source text from left to right

A reader consumes characters and may fail, in which case nothing was consumed. Readers of
syntax start on a token and stop right behind their last token: blanks and comments are read
only in front of a token that is then read too. So a comment between two tokens becomes a
child of the smallest node that holds both.
-/
namespace TokenLint.Source

/-- Yields a result and moves the cursor, or fails. -/
abbrev Reader := StateT Cursor Option

namespace Reader

/-- The next character, left unread. -/
def peek : Reader (Option Char) := fun c => some (c.rest.head?, c)

def position : Reader Nat := fun c => some (c.pos, c)

def atEnd : Reader Bool := fun c => some (c.rest.isEmpty, c)

/-- One character that satisfies `p`. -/
def one (p : Char → Bool) : Reader Char := fun c =>
  match c.rest with
  | [] => none
  | x :: xs => if p x then some (x, ⟨xs, c.pos + x.utf8Size⟩) else none

def skipWhileFrom (p : Char → Bool) : List Char → Nat → Cursor
  | [], pos => ⟨[], pos⟩
  | x :: xs, pos => if p x then skipWhileFrom p xs (pos + x.utf8Size) else ⟨x :: xs, pos⟩

/-- Reads on while `p` holds. -/
def skipWhile (p : Char → Bool) : Reader Unit := fun c =>
  some ((), skipWhileFrom p c.rest c.pos)

/-- Exactly these characters. -/
def exactly : List Char → Reader Unit
  | [] => pure ()
  | x :: xs => do
    let _ ← one (· == x)
    exactly xs

/-- Whether `p` would succeed here; nothing is read. -/
def sees (p : Reader α) : Reader Bool := fun c => some ((p c).isSome, c)

/-- Succeeds where `p` fails; nothing is read. -/
def absent (p : Reader α) : Reader Unit := fun c =>
  match p c with
  | some _ => none
  | none => some ((), c)

def require (b : Bool) : Reader Unit := if b then pure () else failure

def manyUpTo (p : Reader (List Node)) : Nat → Reader (List Node)
  | 0 => pure []
  | n + 1 => fun c =>
    match p c with
    | none => some ([], c)
    | some (nodes, c') =>
      if c'.rest.length < c.rest.length then
        (manyUpTo p n c').map fun (more, c'') => (nodes ++ more, c'')
      else some (nodes, c')

/-- `p` as often as it succeeds and reads something. -/
def many (p : Reader (List Node)) : Reader (List Node) := fun c =>
  manyUpTo p (c.rest.length + 1) c

/-- `p`, or nothing when it fails. -/
def opt (p : Reader (List Node)) : Reader (List Node) := p <|> pure []

/-- The characters that `p` reads. -/
def spanOf (p : Reader Unit) : Reader (List Char) := fun c =>
  (p c).map fun (_, c') => (c.rest.take (c.rest.length - c'.rest.length), c')

end Reader

open Reader

/-- A blank of the language: between tokens it separates and means nothing. -/
def isSpace (c : Char) : Bool :=
  let n := c.toNat
  (0x09 ≤ n && n ≤ 0x0D) || n == 0x20 || n == 0xA0 || n == 0x1680 ||
  (0x2000 ≤ n && n ≤ 0x200B) || n == 0x2028 || n == 0x2029 || n == 0x202F || n == 0x205F ||
  n == 0x2060 || n == 0x3000 || n == 0xFEFF

/-- Ends a line comment. -/
def isLineEnd (c : Char) : Bool :=
  c == '\n' || c == '\r' || c == '\u2028' || c == '\u2029'

/-- Reads up to and including the end mark of a block comment. -/
def skipBlock : List Char → Nat → Option Cursor
  | [], _ => none
  | '*' :: '/' :: xs, pos => some ⟨xs, pos + 2⟩
  | x :: xs, pos => skipBlock xs (pos + x.utf8Size)

/-- A node that `children` reads, from the first token to the last. -/
def node (kind : Kind) (children : Reader (List Node)) : Reader Node := do
  let start ← position
  let cs ← children
  return .mk kind .item start (← position) cs

def lineComment : Reader Unit := do
  exactly ['/', '/']
  skipWhile (!isLineEnd ·)

def blockComment : Reader Unit := do
  exactly ['/', '*']
  fun c => (skipBlock c.rest c.pos).map ((), ·)

def comment : Reader Node :=
  node .comment do
    lineComment <|> blockComment
    return []

/-- Blanks, and the comments among them. -/
def trivia : Reader (List Node) := do
  skipWhile isSpace
  many do
    let c ← comment
    skipWhile isSpace
    return [c]

/-- Trivia, then what `p` reads, as a child in a role. -/
def child (role : Role) (p : Reader Node) : Reader (List Node) := do
  let before ← trivia
  let n ← p
  return before ++ [n.as role]

/-- Trivia, then characters that make no node of their own. -/
def token (p : Reader Unit) : Reader (List Node) := do
  let before ← trivia
  p
  return before

/-- A punctuation mark that is not the start of a longer one. -/
def mark (text : String) (notBefore : List Char) : Reader Unit := do
  exactly text.toList
  match ← peek with
  | none => pure ()
  | some c => require (!notBefore.contains c)

/-- A punctuation mark of one character. -/
def punct (c : Char) : Reader (List Node) := token do
  let _ ← one (· == c)

/-- A punctuation mark of several characters. -/
def punctText (text : String) : Reader (List Node) := token (exactly text.toList)

/-- Whether trivia and then `p` follow; nothing is read. -/
def ahead (p : Reader Unit) : Reader Bool := sees (token p)

/-- No character that ends a line lies between here and the next token. -/
def sameLine : Reader Unit := fun c =>
  match trivia c with
  | none => none
  | some (_, c') =>
    if (c.rest.take (c.rest.length - c'.rest.length)).any isLineEnd then none else some ((), c)

end TokenLint.Source
