import TokenLint.Source.Grammar.Function

/-!
# Expressions
-/
namespace TokenLint.Source.Grammar
open Reader

variable (g : Grammar)

def template : Reader Node := templateOf .template .substitution (expression g)

def spread : Reader Node := group [punctText "...", child .item (assignment g)]

def parenthesized : Reader Node :=
  node .parenthesized (seq
    [punct '(', child .item (expression g), opt (ascription g), punct ')'])

def array : Reader Node :=
  let slot := child .item (spread g <|> assignment g)
  node .array (seq [punct '[', many (slot <|> punct ','), punct ']'])

def objectMember : Reader (List Node) :=
  let pair :=
    node .pair (seq
      [child .key (memberName g), punct ':', child .value (assignment g)])
  let next : Reader Unit := do
    let _ ← one fun c => isWordChar c || isQuote c || c == '[' || c == '#' || c == '*'
  let method :=
    group
      [modifiers ["async", "get", "set"] next, opt (punct '*'), child .item (memberName g),
       signature g, child .item (block g)]
  let short :=
    group
      [child .item identifier,
       opt (seq [token (mark "=" ['=', '>']), child .item (assignment g)])]
  child .item (spread g <|> pair <|> method <|> short)

def object : Reader Node :=
  node .object (seq [punct '{', commaList (objectMember g), punct '}'])

def argumentList : Reader Node :=
  node .arguments (seq
    [punct '(', commaList (child .item (spread g <|> assignment g)), punct ')'])

/-- Type arguments of an expression count only where what follows cannot be an operand. -/
def appliedTypes : Reader (List Node) := do
  let ts ← child .item (typeArguments g)
  let operand : Reader Unit := do
    sameLine
    let _ ← trivia
    let _ ← one fun c =>
      isWordChar c || isQuote c || c == '[' || c == '{' || c == '<' || c == '>' || c == '+' ||
      c == '-' || c == '!' || c == '~' || c == '/' || c == '@' || c == '#'
  let wordOperator := ahead (do
    let _ ← keywordOf ["as", "satisfies", "instanceof", "in", "extends", "implements"])
  if ← wordOperator then return ts
  absent operand
  return ts

/-- One member, index, call or assertion behind an expression. -/
def suffix (calls : Bool) (n : Node) : Reader Node :=
  let plainDot := token (mark "." ['.'])
  let chainDot := token (do
    exactly ['?', '.']
    absent (one Char.isDigit))
  let name := child .property (propertyName <|> privateName)
  let index := seq [punct '[', child .item (expression g), punct ']']
  let types := opt (child .item (typeArguments g))
  let fn := n.as .callee
  let call := seq [types, child .arguments (argumentList g)]
  let member := grow .member (n.as .object) (seq [plainDot <|> chainDot, name])
  let bang := grow .other n do
    sameLine
    token (mark "!" ['='])
  let called :=
    grow .call fn (seq [opt chainDot, call]) <|> grow .call fn (child .arguments (template g))
  let tagged :=
    grow .call fn (seq [child .item (typeArguments g), child .arguments (template g)])
  member <|> grow .other n (seq [opt chainDot, index]) <|> bang <|>
    (if calls then called <|> tagged <|> grow .other n (appliedTypes g) else failure)

def suffixes (calls : Bool) : Nat → Node → Reader Node
  | 0, n => pure n
  | k + 1, n => (do suffixes calls k (← suffix g calls n)) <|> pure n

def withSuffixes (calls : Bool) (first : Reader Node) : Reader Node := do
  let n ← first
  fun c => suffixes g calls (c.rest.length + 1) n c

/-- A word that is an expression by itself. -/
def namedValue : Reader Node := do
  let w ← nextWord
  let plain := node .other (do let _ ← word; return [])
  if w == "function" then function g
  else if w == "async" then
    (do
      require (← sees (seq [keyword "async", do sameLine; return [], keyword "function"]))
      function g) <|> identifier
  else if w == "class" then classExpression g
  else if w == "true" then node .trueLiteral (do let _ ← word; return [])
  else if ["this", "super", "null", "false", "undefined", "import"].contains w then plain
  else identifier

/-- What an expression is made from. -/
def primary : Reader Node := do
  match ← peek with
  | none => failure
  | some c =>
    if c == '(' then parenthesized g
    else if c == '[' then array g
    else if c == '{' then object g
    else if isQuote c then quoted
    else if c == '\x60' then template g
    else if c == '/' then pattern
    else if c == '<' then g .element
    else if c == '#' then privateName
    else if c == '@' then classExpression g
    else if c.isDigit || c == '.' then number
    else namedValue g

/-- An object made by `new`. -/
def construction : Reader Node :=
  let invoked := group [keyword "new", token (mark "." ['.']), child .item propertyName]
  let nested := do
    require (← sees (keyword "new"))
    g .access
  let made :=
    node .construction (seq
      [keyword "new", child .item (nested <|> withSuffixes g false (primary g)),
       opt (child .item (typeArguments g)), opt (child .arguments (argumentList g))])
  invoked <|> made

def access : Reader Node := withSuffixes g true (construction g <|> primary g)

def unary : Reader Node :=
  let sign := exactly ['+', '+'] <|> exactly ['-', '-'] <|>
    (do let _ ← one fun c => c == '!' || c == '~' || c == '+' || c == '-')
  let operator := token sign <|> keywordOf ["typeof", "void", "delete", "await"]
  let applied := group [operator, child .item (g .unary)]
  let stepped := do
    let n ← access g
    let step := do
      sameLine
      punctText "++" <|> punctText "--"
    grow .other n step <|> pure n
  applied <|> stepped

/-- Binary operators, longest first, with how tightly they bind; marks that bind no two
operands have none. -/
def operators : List (String × Option (Nat × BinaryOp)) :=
  [(">>>=", none), ("===", some (9, .other)), ("!==", some (9, .other)),
   (">>>", some (11, .other)), ("<<=", none), (">>=", none), ("**=", none), ("&&=", none),
   ("||=", none), ("??=", none), ("=>", none), ("==", some (9, .other)),
   ("!=", some (9, .other)), ("<=", some (10, .other)), (">=", some (10, .other)),
   ("<<", some (11, .other)), (">>", some (11, .other)), ("&&", some (5, .choice)),
   ("||", some (4, .choice)), ("??", some (3, .choice)), ("**", some (14, .other)),
   ("++", none), ("--", none), ("+=", none), ("-=", none), ("*=", none), ("/=", none),
   ("%=", none), ("&=", none), ("|=", none), ("^=", none), ("?.", none),
   ("<", some (10, .other)), (">", some (10, .other)), ("+", some (12, .plus)),
   ("-", some (12, .other)), ("*", some (13, .other)), ("/", some (13, .other)),
   ("%", some (13, .other)), ("&", some (8, .other)), ("|", some (6, .other)),
   ("^", some (7, .other))]

/-- The first mark in the list that the text starts with. -/
def markAhead (cs : List Char) :
    List (String × Option (Nat × BinaryOp)) → Option (List Char × Nat × BinaryOp)
  | [] => none
  | (text, info) :: rest =>
    if text.toList.isPrefixOf cs then info.map (text.toList, ·) else markAhead cs rest

/-- A binary operator that binds at least as tightly as `least`. -/
def operator (mode : Mode) (least : Nat) : Reader (Nat × BinaryOp) := fun c =>
  match markAhead c.rest operators with
  | some (text, level, op) =>
    if least ≤ level then (exactly text c).map fun (_, c') => ((level, op), c') else none
  | none =>
    match word c with
    | some (w, c') =>
      if 10 ≥ least && (w == "instanceof" || (w == "in" && mode.allowIn)) then
        some ((10, .other), c')
      else none
    | none => none

/-- Operands and operators behind `left` that bind at least as tightly as `least`. -/
def operations (mode : Mode) : Nat → Nat → Node → Reader Node
  | 0, _, left => pure left
  | k + 1, least, left =>
    let typed := do
      let n ← grow .other left do
        let before ← keywordOf ["as", "satisfies"]
        require (least ≤ 10)
        return before ++ (← child .item (g .typeExpr))
      operations mode k least n
    let binary := do
      let before ← trivia
      let (level, op) ← operator mode least
      let between ← trivia
      let operand ← g .unary
      let right ← operations mode k (if level == 14 then 14 else level + 1) operand
      let cs := left.as .left :: before ++ between ++ [right.as .right]
      operations mode k least (.mk (.binary op) .item left.start (← position) cs)
    typed <|> binary <|> pure left

def binary (mode : Mode) : Reader Node := do
  let n ← g .unary
  fun c => operations g mode (c.rest.length + 1) 0 n c

def ternary (mode : Mode) : Reader Node := do
  let n ← binary g mode
  let asks : Reader (List Node) := token do
    exactly ['?']
    absent (one (· == '?'))
    absent do
      exactly ['.']
      absent (one Char.isDigit)
  let branches (arrowType : Bool) :=
    seq
      [asks, child .consequence (g (.assignment ⟨true, arrowType⟩)), punct ':',
       child .alternative (g (.assignment mode))]
  grow .ternary n (branches true) <|> grow .ternary n (branches false) <|> pure n

/-- Operators that change what they assign to. -/
def updates : List String :=
  [">>>=", "**=", "<<=", ">>=", "&&=", "||=", "??=", "+=", "-=", "*=", "/=", "%=", "&=", "|=",
   "^="]

def updateMark : Reader Unit := fun c =>
  match updates.find? (·.toList.isPrefixOf c.rest) with
  | some text => exactly text.toList c
  | none => none

def yielded (mode : Mode) : Reader Node :=
  let operand := do
    sameLine
    seq [opt (punct '*'), child .item (g (.assignment mode))]
  group [keyword "yield", opt operand]

/-- Whether an arrow function may begin here. -/
def arrowAhead : Reader Bool := do
  match ← peek with
  | none => return false
  | some c =>
    if c == '(' || c == '<' then return true
    else sees (keyword "async" <|> seq [child .item identifier, punctText "=>"])

def assignmentExpr (mode : Mode) : Reader Node :=
  let plain := do
    let n ← ternary g mode
    let value := child .right (g (.assignment mode))
    grow .assignment (n.as .left) (seq [token (mark "=" ['=', '>']), value]) <|>
      grow .other n (seq [token updateMark, value]) <|> pure n
  do
    if ← arrowAhead then arrow g mode <|> yielded g mode <|> plain
    else yielded g mode <|> plain

/-- Expressions with commas between them; two or more make a node of their own. -/
def sequence (mode : Mode) : Reader Node := do
  let n ← g (.assignment mode)
  let more := seq [punct ',', child .item (g (.assignment mode))]
  grow .other n (seq [more, many more]) <|> pure n

end TokenLint.Source.Grammar
