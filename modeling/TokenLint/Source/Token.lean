import TokenLint.Source.Reader

/-!
# Words, literals and statement ends

The tokens that are more than a punctuation mark, and the rule by which a line break ends a
statement.
-/
namespace TokenLint.Source
open Reader

/-- The marks that end a word. -/
def marks : List Char :=
  [':', ';', '\x60', '"', '\'', '@', '#', '.', ',', '|', '^', '&', '<', '=', '>', '+', '-', '*',
   '/', '\\', '%', '?', '!', '~', '(', ')', '[', ']', '{', '}']

def isWordChar (c : Char) : Bool :=
  0x20 ≤ c.toNat && !isSpace c && !marks.contains c

/-- An escaped character inside a word. -/
def wordEscape : Reader Unit := do
  exactly ['\\', 'u']
  let hex := do
    let _ ← one Text.isHex
  let braced := do
    exactly ['{']
    skipWhile Text.isHex
    exactly ['}']
  let plain := do hex; hex; hex; hex
  braced <|> plain

/-- A name or a keyword, as it is spelled. -/
def word : Reader String := do
  let cs ← spanOf do
    absent (one Char.isDigit)
    let part : Reader Unit := do
      let _ ← one isWordChar
      skipWhile isWordChar
    part <|> wordEscape
    let _ ← many do
      part <|> wordEscape
      return []
  return String.ofList cs

/-- The word that begins here, left unread; empty when none does. -/
def nextWord : Reader String := fun c =>
  some ((word c).elim "" (·.1), c)

/-- Words that are never names of variables. -/
def reserved : List String :=
  ["break", "case", "catch", "class", "const", "continue", "debugger", "default", "delete",
   "do", "else", "enum", "export", "extends", "false", "finally", "for", "function", "if",
   "import", "in", "instanceof", "new", "null", "return", "super", "switch", "this", "throw",
   "true", "try", "typeof", "var", "void", "while", "with"]

/-- Trivia, then this very word. -/
def keyword (w : String) : Reader (List Node) := token do
  let x ← word
  require (x == w)

/-- Trivia, then one of these words. -/
def keywordOf (ws : List String) : Reader (List Node) := token do
  let x ← word
  require (ws.contains x)

/-- The name of a variable. -/
def identifier : Reader Node :=
  node .identifier do
    let x ← word
    require (!reserved.contains x)
    return []

/-- Any word, a reserved one included, as a name behind a dot or before a colon. -/
def propertyName : Reader Node :=
  node .propertyName do
    let _ ← word
    return []

/-- A name behind `#`. -/
def privateName : Reader Node :=
  node .other do
    exactly ['#']
    let _ ← word
    return []

/-- Reads behind the closing quote; a backslash takes the next character along. -/
def skipQuoted (quote : Char) : List Char → Nat → Option Cursor
  | [], _ => none
  | '\\' :: x :: xs, pos => skipQuoted quote xs (pos + 1 + x.utf8Size)
  | x :: xs, pos =>
    if x == quote then some ⟨xs, pos + x.utf8Size⟩
    else if x == '\n' || x == '\r' then none
    else skipQuoted quote xs (pos + x.utf8Size)

def isQuote (c : Char) : Bool := c == '"' || c == '\''

def quoted : Reader Node :=
  node .string do
    let q ← one isQuote
    fun c => (skipQuoted q c.rest c.pos).map ([], ·)

/-- A quoted attribute value: it may span lines and has no escapes. -/
def quotedAttribute : Reader Node :=
  node .string do
    let q ← one isQuote
    skipWhile (· != q)
    let _ ← one (· == q)
    return []

def isDigitOrSep (c : Char) : Bool := c.isDigit || c == '_'

def exponent : Reader Unit := do
  let _ ← one fun c => c == 'e' || c == 'E'
  (do let _ ← one fun c => c == '+' || c == '-') <|> pure ()
  let _ ← one Char.isDigit
  skipWhile isDigitOrSep

def fraction : Reader Unit := do
  let _ ← one (· == '.')
  skipWhile isDigitOrSep

def number : Reader Node :=
  node .other do
    let based : Reader Unit := do
      let _ ← one (· == '0')
      let _ ← one fun c => c.isAlpha && !(c == 'e' || c == 'E' || c == 'n')
      skipWhile fun c => c.isAlphanum || c == '_'
    let whole : Reader Unit := do
      let _ ← one Char.isDigit
      skipWhile isDigitOrSep
      fraction <|> pure ()
      exponent <|> pure ()
      (do let _ ← one (· == 'n')) <|> pure ()
    let part : Reader Unit := do
      let _ ← one (· == '.')
      let _ ← one Char.isDigit
      skipWhile isDigitOrSep
      exponent <|> pure ()
    based <|> whole <|> part
    return []

/-- Reads behind the slash that closes a pattern; inside brackets a slash is plain. -/
def skipPattern : Bool → List Char → Nat → Option Cursor
  | _, [], _ => none
  | inside, '\\' :: x :: xs, pos =>
    if x == '\n' then none else skipPattern inside xs (pos + 1 + x.utf8Size)
  | inside, x :: xs, pos =>
    if x == '\n' then none
    else if x == '/' && !inside then some ⟨xs, pos + 1⟩
    else skipPattern (if x == '[' then true else if x == ']' then false else inside) xs
      (pos + x.utf8Size)

/-- A pattern between slashes, with its flags. -/
def pattern : Reader Node :=
  node .other do
    exactly ['/']
    fun c => (skipPattern false c.rest c.pos).map ((), ·)
    skipWhile Char.isAlpha
    return []

/-- Static text of a template, up to an interpolation or the closing mark. -/
def skipStatic : List Char → Nat → Cursor
  | '\\' :: x :: xs, pos => skipStatic xs (pos + 1 + x.utf8Size)
  | '\x60' :: xs, pos => ⟨'\x60' :: xs, pos⟩
  | '$' :: '{' :: xs, pos => ⟨'$' :: '{' :: xs, pos⟩
  | x :: xs, pos => skipStatic xs (pos + x.utf8Size)
  | [], pos => ⟨[], pos⟩

/-- A template whose interpolations `inner` reads. -/
def templateOf (kind hole : Kind) (inner : Reader Node) : Reader Node :=
  node kind do
    exactly ['\x60']
    let static : Reader Unit := fun c => some ((), skipStatic c.rest c.pos)
    static
    let holes ← many do
      let n ← node hole do
        exactly ['$', '{']
        let e ← child .item inner
        return e ++ (← punct '}')
      static
      return [n]
    exactly ['\x60']
    return holes

/-- Several pieces, one behind the other. -/
def seq : List (Reader (List Node)) → Reader (List Node)
  | [] => pure []
  | p :: ps => do
    let first ← p
    return first ++ (← seq ps)

/-- Items with commas between them, perhaps one behind the last. -/
def commaList (item : Reader (List Node)) : Reader (List Node) :=
  opt do
    let first ← item
    let more ← many (seq [punct ',', item])
    return first ++ more ++ (← opt (punct ','))

/-- A place where a statement may end without a semicolon: the end of the text, a closing
brace or a line break. -/
def lineEnds : Reader Unit := fun c =>
  match c.rest.dropWhile (fun x => isSpace x && x != '\n') with
  | [] => some ((), c)
  | x :: _ => if x == '}' || x == '\n' then some ((), c) else none

def commentsThenLineEnd : Nat → Reader (List Node)
  | 0 => failure
  | n + 1 => do
    if ← sees lineEnds then return []
    skipWhile isSpace
    let first ← comment
    return first :: (← commentsThenLineEnd n)

/-- The end of a statement. A comment on the statement's last line belongs to it when no
semicolon precedes the line break. -/
def semicolon : Reader (List Node) := fun c =>
  (punct ';' <|> commentsThenLineEnd (c.rest.length + 1)) c

end TokenLint.Source
