import TokenLint.Source.Grammar.Expression

/-!
# Markup elements
-/
namespace TokenLint.Source.Grammar
open Reader

variable (g : Grammar)

/-- A name in a tag: dashes are part of it. -/
def tagWord : Reader Unit := do
  absent (one Char.isDigit)
  let _ ← one isWordChar
  skipWhile fun c => isWordChar c || c == '-'

def tagWordNode (kind : Kind) : Reader Node :=
  node kind do
    tagWord
    return []

/-- A name behind its namespace. -/
def namespaced : Reader Node :=
  group [child .item (tagWordNode .identifier), punct ':', child .item (tagWordNode .identifier)]

def tagMembers : Nat → Node → Reader Node
  | 0, n => pure n
  | k + 1, n =>
    (do
      let property := child .property (tagWordNode .propertyName)
      tagMembers k (← grow .member (n.as .object) (seq [punct '.', property]))) <|> pure n

def elementName : Reader Node :=
  let dotted := do
    let n ← tagWordNode .identifier
    fun c => tagMembers (c.rest.length + 1) n c
  namespaced <|> dotted

/-- An expression between braces, perhaps none. -/
def container : Reader Node :=
  node .jsxExpression (seq
    [punct '{', opt (child .item (spread g <|> expression g)), punct '}'])

def tagAttribute : Reader Node :=
  let name := namespaced <|> tagWordNode .propertyName
  let value := quotedAttribute <|> container g <|> g .element
  container g <|>
    node .jsxAttribute (seq [child .item name, opt (seq [punct '=', child .item value])])

/-- What stands between `<` and the end of the tag. -/
def tagContents : Reader (List Node) :=
  seq
    [child .name elementName, opt (child .item (typeArguments g)),
     many (child .attribute (tagAttribute g))]

/-- Text, elements and containers up to a closing tag. -/
def contents : Reader (List Node) := do
  let text : Reader Unit := skipWhile fun c => c != '<' && c != '{'
  let inner ← many do
    text
    let n ← container g <|> g .element
    return [n]
  text
  return inner

def closingTag : Reader Node :=
  node .jsxClosing (seq [punct '<', punct '/', opt (child .name elementName), punct '>'])

def element : Reader Node := do
  let start ← position
  let head ← seq [punct '<', opt (tagContents g)]
  let selfClosing := do
    require (!head.isEmpty)
    let cs ← seq [punct '/', punct '>']
    return .mk .other .item start (← position) (head ++ cs)
  let pairOfTags := do
    let cs ← punct '>'
    let opening := .mk .jsxOpening .openTag start (← position) (head ++ cs)
    let inner ← contents g
    let closing ← closingTag
    return .mk .jsxElement .item start (← position)
      (opening :: inner ++ [closing.as .closeTag])
  selfClosing <|> pairOfTags

end TokenLint.Source.Grammar
