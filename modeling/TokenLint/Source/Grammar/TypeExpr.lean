import TokenLint.Source.Grammar.Goal

/-!
# Types

Only the quoted strings in a type, and the keyword `string`, are of interest to the rules; the
rest is read to know where the type ends.
-/
namespace TokenLint.Source.Grammar
open Reader

variable (g : Grammar)

/-- The keyword type `string`, which stands for itself as a node. -/
def stringType : Reader Node :=
  node .other do
    let w ← node .string do
      let x ← word
      require (x == "string")
      return []
    absent (token (mark "." ['.']))
    return [w]

def templateType : Reader Node := templateOf .other .other (g .typeExpr)

def dot : Reader (List Node) := token (mark "." ['.'])

/-- Accesses, each to the one before it. -/
def accessChain : Node → List Node → Node
  | n, [] => n
  | n, p :: ps =>
    accessChain (.mk .member .item n.start p.stop [n.as .object, p.as .property]) ps

/-- The children of a name with dots: but for some properties at the end it is an access. -/
def dottedChildren (outer : Nat) (first : Node) (rest : List Node) : List Node :=
  let names := rest.filter (·.kind != .comment)
  let inner := names.take (names.length - outer)
  accessChain first inner :: names.drop inner.length ++ rest.filter (·.kind == .comment)

/-- A name with dots, of which the last `outer` are no accesses. -/
def dotted (outer : Nat) : Reader (List Node) := do
  let before ← trivia
  let first ← node .identifier (do let _ ← word; return [])
  let rest ← many (seq [dot, child .item propertyName])
  return before ++ dottedChildren outer first rest

def dottedType : Reader Node := group [dotted 2, opt (child .item (typeArguments g))]

/-- A name with dots that is no type. -/
def dottedName : Reader Node := group [dotted 1]

def importType : Reader Node :=
  group
    [keyword "import", punct '(', commaList (child .item (assignment g)), punct ')',
     many (seq [dot, child .item propertyName]),
     opt (child .item (typeArguments g))]

/-- A larger node that begins with `first`. -/
def grow (kind : Kind) (first : Node) (rest : Reader (List Node)) : Reader Node := do
  let cs ← rest
  return .mk kind .item first.start (← position) (first :: cs)

/-- One member, index or call behind the value whose type is asked for. -/
def queryLink (n : Node) : Reader Node :=
  let chainDot := token (do
    exactly ['?', '.']
    absent (one Char.isDigit))
  let name := child .property (propertyName <|> privateName)
  let plain := node .other (do let _ ← word; return [])
  let index := do
    sameLine
    let cs ← seq [opt chainDot, punct '[', child .item (quoted <|> number <|> stringType <|> plain),
      punct ']']
    require (← ahead (do let _ ← one fun c => c == '.' || c == '?' || c == '('))
    return cs
  let call := do
    sameLine
    child .arguments (node .arguments (seq
      [punct '(', commaList (child .item (assignment g)), punct ')']))
  grow .member (n.as .object) (seq [dot <|> chainDot, name]) <|> grow .other n index <|>
    grow .call (n.as .callee) call

def queryLinks : Nat → Node → Reader Node
  | 0, n => pure n
  | k + 1, n => (do queryLinks k (← queryLink g n)) <|> pure n

/-- A value whose type is asked for. -/
def queriedValue : Reader Node := do
  let n ← node .identifier (do let _ ← word; return [])
  fun c => queryLinks g (c.rest.length + 1) n c

/-- The type of a value. -/
def queryType : Reader Node :=
  let value := seq [child .item (queriedValue g), opt (child .item (typeArguments g))]
  group [keyword "typeof", child .item (importType g) <|> value]

def tupleType : Reader Node :=
  let label := seq [child .item propertyName, opt (punct '?'), punct ':']
  group
    [punct '[',
     commaList (seq
       [opt (punctText "..."), opt label, child .item (g .typeExpr), opt (punct '?')]),
     punct ']']

def parenthesizedType : Reader Node :=
  group [punct '(', child .item (g .typeExpr), punct ')']

/-- A bracketed name in an object type: each of some keys, or any key of a type. -/
def keyClause : Reader Node :=
  let asClause := opt (seq [keyword "as", child .item (g .typeExpr)])
  let each := seq [keyword "in", child .item (g .typeExpr), asClause]
  group [punct '[', child .item propertyName, each <|> ascription g, punct ']']

def memberStart : Reader Unit := do
  let _ ← one fun c => isWordChar c || isQuote c || c == '[' || c == '#'

def typeMember : Reader Node :=
  let sign := opt (punct '+' <|> punct '-')
  group
    [do absent (one (· == '}')); return [],
     sign,
     modifiers ["readonly", "get", "set", "static", "public", "private", "protected"]
       memberStart,
     opt (child .item (keyClause g <|> memberName g)),
     sign,
     opt (punct '?'),
     opt (child .item (typeParameters g)),
     opt (child .item (parameters g)),
     opt (ascription g)]

def objectType : Reader Node :=
  group
    [punct '{',
     many (seq [child .item (typeMember g), opt (punct ',' <|> punct ';')]),
     punct '}']

def literalType : Reader Node :=
  quoted <|> number <|> group [punct '-', child .item number] <|> templateType g

def primaryType : Reader Node :=
  literalType g <|> parenthesizedType g <|> tupleType g <|> objectType g <|> queryType g <|>
  importType g <|> stringType <|> dottedType g

def inferredType : Reader Node :=
  let bound := do
    let cs ← seq [keyword "extends", child .item (g .plainType)]
    absent (token (mark "?" []))
    return cs
  group [keyword "infer", child .item identifier, opt bound]

/-- A claim about an argument, as the type of what a function returns. -/
def predicateType : Reader Node :=
  let claim := do
    sameLine
    seq [keyword "is", child .item (g .typeExpr)]
  let asserting := seq [keyword "asserts", child .item propertyName, opt claim]
  let plain := seq [child .item propertyName, claim]
  group [do
    if ← sees (seq [keyword "asserts", keyword "is"]) then plain else
      (do let cs ← asserting; return cs) <|> plain]

/-- A type with the operators in front of it and the brackets behind it. -/
def operandType : Reader Node :=
  let typeStart : Reader Unit := do
    let _ ← one fun c => isWordChar c || isQuote c || c == '[' || c == '(' || c == '{'
  let index := do
    sameLine
    seq [punct '[', opt (child .item (g .typeExpr)), punct ']']
  inferredType g <|> predicateType g <|>
  group
    [modifiers ["keyof", "unique", "readonly"] typeStart,
     child .item (inferredType g <|> primaryType g),
     many index]

def functionType : Reader Node :=
  group
    [opt (keyword "abstract"), opt (keyword "new"), opt (child .item (typeParameters g)),
     child .item (parameters g), punctText "=>", child .item (g .typeExpr)]

/-- Alternatives and intersections. -/
def unionType : Reader Node :=
  let joint := token (mark "|" ['|'] <|> mark "&" ['&'])
  group
    [opt joint, child .item (functionType g <|> operandType g),
     many (seq [joint, child .item (functionType g <|> operandType g)])]

def typeExpr : Reader Node :=
  let choice :=
    seq
      [keyword "extends", child .item (g .plainType), punct '?', child .item (g .typeExpr),
       punct ':', child .item (g .typeExpr)]
  group [child .item (unionType g), opt choice]

end TokenLint.Source.Grammar
