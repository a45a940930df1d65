import TokenLint.Source.Grammar.TypeExpr

/-!
# Functions and classes
-/
namespace TokenLint.Source.Grammar
open Reader

variable (g : Grammar)

def block : Reader Node :=
  group [punct '{', many (child .item (g .statement)), punct '}']

/-- Type parameters, parameters and the type of the result. -/
def signature : Reader (List Node) :=
  seq
    [opt (child .item (typeParameters g)), child .item (parameters g), opt (ascription g)]

/-- A function with its keyword; without a body it only declares an overload. -/
def function : Reader Node :=
  group
    [opt (keyword "async"), keyword "function", opt (punct '*'), opt (child .item identifier),
     signature g, opt (child .item (block g))]

/-- An arrow function. -/
def arrow (mode : Mode) : Reader Node :=
  let annotated := if mode.arrowType then opt (ascription g) else pure []
  let parenthesized :=
    seq [opt (child .item (typeParameters g)), child .item (parameters g), annotated]
  let params := parenthesized <|> child .item identifier
  let body := block g <|> g (.assignment mode)
  let tail := seq [params, punctText "=>", child .item body]
  let async := do
    let cs ← keyword "async"
    sameLine
    return cs ++ (← tail)
  group [async <|> tail]

def staticBlock : Reader (List Node) := child .item (block g)

def classMember : Reader Node :=
  let next : Reader Unit := do
    let _ ← one fun c =>
      isWordChar c || isQuote c || c == '[' || c == '#' || c == '*' || c == '{'
  let method := seq [signature g, opt (child .item (block g))]
  let field :=
    seq [opt (ascription g), opt (seq [token (mark "=" ['=']), child .item (assignment g)])]
  let named :=
    seq
      [opt (punct '*'), child .item (keyClause g <|> memberName g),
       opt (punct '?' <|> token (mark "!" ['='])), method <|> field]
  group
    [decorators g,
     modifiers
       ["public", "private", "protected", "static", "override", "readonly", "abstract",
        "declare", "async", "get", "set", "accessor"] next,
     staticBlock g <|> named]

def classBody : Reader Node :=
  group
    [punct '{',
     many (punct ';' <|> seq [child .item (classMember g), opt (punct ';')]),
     punct '}']

def classExpression : Reader Node :=
  let base := seq [child .item (g .access), opt (child .item (typeArguments g))]
  let bases := seq [base, many (seq [punct ',', base])]
  let interfaces :=
    seq [child .item (g .plainType), many (seq [punct ',', child .item (g .plainType)])]
  let name := do
    require !(← ahead (do let _ ← keywordOf ["implements"]))
    child .item identifier
  group
    [decorators g, opt (keyword "abstract"), keyword "class", opt name,
     opt (child .item (typeParameters g)), opt (seq [keyword "extends", bases]),
     opt (seq [keyword "implements", interfaces]), child .item (classBody g)]

end TokenLint.Source.Grammar
