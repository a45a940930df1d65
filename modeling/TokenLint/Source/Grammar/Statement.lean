import TokenLint.Source.Grammar.Markup

/-!
# Statements
-/
namespace TokenLint.Source.Grammar
open Reader

variable (g : Grammar)

def condition : Reader (List Node) :=
  child .item (node .parenthesized (seq [punct '(', child .item (expression g), punct ')']))

def inner : Reader (List Node) := child .item (g .statement)

def declarator (mode : Mode) : Reader Node :=
  node .declarator (seq
    [child .name (g .target), opt (token (mark "!" ['='])), opt (ascription g),
     opt (seq [token (mark "=" ['=', '>']), child .value (g (.assignment mode))])])

/-- Declared variables up to the end of the statement. -/
def declarationUpTo (mode : Mode) (final : Reader (List Node)) : Reader Node :=
  let one := child .item (declarator g mode)
  node .declaration (seq [keywordOf ["let", "const", "var"], one, many (seq [punct ',', one]),
    final])

def ifStatement : Reader Node :=
  group [keyword "if", condition g, inner g, opt (seq [keyword "else", inner g])]

def whileStatement : Reader Node := group [keyword "while", condition g, inner g]

def doStatement : Reader Node :=
  group [keyword "do", inner g, keyword "while", condition g, opt semicolon]

def forStatement : Reader Node :=
  let loopMode : Mode := ⟨false, true⟩
  let overEach :=
    seq
      [opt (keywordOf ["let", "const", "var"]), child .item (g .target <|> g .access),
       keywordOf ["of", "in"], child .item (expression g)]
  let first :=
    child .item (declarationUpTo g loopMode (punct ';')) <|>
      seq [opt (child .item (g (.expression loopMode))), punct ';']
  let counting :=
    seq
      [first, opt (child .item (expression g)), punct ';', opt (child .item (expression g))]
  group
    [keyword "for", opt (keyword "await"), punct '(', overEach <|> counting, punct ')', inner g]

def switchStatement : Reader Node :=
  let label := seq [keyword "case", child .item (expression g)] <|> keyword "default"
  let clause := seq [label, punct ':', many (inner g)]
  group [keyword "switch", condition g, punct '{', many clause, punct '}']

def tryStatement : Reader Node :=
  let caught := seq [punct '(', child .item (g .target), opt (ascription g), punct ')']
  group
    [keyword "try", child .item (block g),
     opt (seq [keyword "catch", opt caught, child .item (block g)]),
     opt (seq [keyword "finally", child .item (block g)])]

def jump : Reader Node :=
  let operand := do
    sameLine
    child .item (expression g)
  group [keywordOf ["return", "throw", "break", "continue", "debugger"], opt operand, semicolon]

def withStatement : Reader Node := group [keyword "with", condition g, inner g]

def labelled : Reader Node := group [child .item identifier, punct ':', inner g]

def interfaceDeclaration : Reader Node :=
  let bases :=
    seq [child .item (g .plainType), many (seq [punct ',', child .item (g .plainType)])]
  group
    [keyword "interface", child .item identifier, opt (child .item (typeParameters g)),
     opt (seq [keyword "extends", bases]), child .item (objectType g)]

def typeAlias : Reader Node :=
  group
    [keyword "type", child .item identifier, opt (child .item (typeParameters g)),
     token (mark "=" ['=', '>']), child .item (g .typeExpr), semicolon]

def enumDeclaration : Reader Node :=
  let item :=
    child .item (group
      [child .item (memberName g),
       opt (seq [token (mark "=" ['=', '>']), child .item (assignment g)])])
  group
    [opt (keyword "const"), keyword "enum", child .item identifier, punct '{', commaList item,
     punct '}']

/-- A namespace, or a module under a quoted name. -/
def namespaceDeclaration : Reader Node :=
  group
    [keywordOf ["namespace", "module"],
     (do sameLine; child .item dottedName) <|> child .item quoted,
     child .item (block g) <|> semicolon]

def functionDeclaration : Reader Node := group [child .item (function g), opt (punct ';')]

/-- What may be exported or only announced. -/
def declarationStatement : Reader Node :=
  enumDeclaration g <|> declarationUpTo g .plain semicolon <|> functionDeclaration g <|>
  classExpression g <|> interfaceDeclaration g <|> typeAlias g <|> namespaceDeclaration g

def ambient : Reader Node :=
  let wide := seq [keyword "global", child .item (block g)]
  group [keyword "declare", wide <|> child .item (declarationStatement g)]

/-- One imported name, under a name of its own or another. -/
def importSpecifier : Reader Node :=
  let name := child .name (node .identifier (do let _ ← word; return []) <|> quoted)
  let renamed := seq [name, keyword "as", child .alias identifier]
  let marker := keywordOf ["type", "typeof"]
  let final : Reader Unit := do
    let _ ← one fun c => c == ',' || c == '}'
  let complete (p : Reader (List Node)) := do
    let cs ← p
    require (← ahead final)
    return cs
  node .importSpecifier
    (complete (seq [marker, renamed]) <|> complete renamed <|> complete (seq [marker, name]) <|>
      complete name)

def importClause : Reader Node :=
  let star :=
    child .item (node .namespaceImport
      (seq [punct '*', keyword "as", child .item identifier]))
  let named :=
    child .item (node .namedImports
      (seq [punct '{', commaList (child .item importSpecifier), punct '}']))
  let first := seq [child .item identifier, opt (seq [punct ',', star <|> named])]
  node .importClause (star <|> named <|> first)

def importStatement : Reader Node :=
  let marker :=
    child .item (node .typeMarker (keywordOf ["type", "typeof"]))
  let source := child .source quoted
  let bound := seq [child .item importClause, keyword "from", source]
  let required :=
    child .item (group
      [child .item identifier, punct '=', keyword "require", punct '(', child .source quoted,
       punct ')'])
  let attributes := opt (seq [keywordOf ["with", "assert"], child .item (object g)])
  node .importStatement (seq
    [keyword "import",
     seq [marker, bound <|> required] <|> bound <|> required <|> source,
     attributes, semicolon])

/-- A short name for a member of a namespace. -/
def importAlias : Reader Node :=
  group
    [keyword "import", child .item identifier, punct '=', child .item dottedName, semicolon]

def exportStatement : Reader Node :=
  let origin := seq [keyword "from", child .source quoted,
    opt (seq [keywordOf ["with", "assert"], child .item (object g)])]
  let name := child .item (propertyName <|> quoted)
  let specifier :=
    seq [opt (seq [keyword "type", do
           require !(← ahead (do let _ ← one fun c => c == ',' || c == '}'))
           require !(← ahead (do let _ ← keywordOf ["as"]))
           return []]),
         name, opt (seq [keyword "as", name])]
  let list := seq [punct '{', commaList specifier, punct '}']
  let all := seq [punct '*', opt (seq [keyword "as", name]), origin]
  let listed := seq [opt (keyword "type"), all <|> seq [list, opt origin], semicolon]
  let standard :=
    seq
      [keyword "default",
       child .declaration (functionDeclaration g <|> classExpression g <|>
         interfaceDeclaration g) <|> seq [child .value (expression g), semicolon]]
  let assigned := seq [token (mark "=" ['=', '>']), child .value (expression g), semicolon]
  let named := seq [keyword "as", keyword "namespace", child .item identifier, semicolon]
  let declared :=
    child .declaration
      (ambient g <|> importAlias <|> importStatement g <|> declarationStatement g)
  node .exportStatement (seq
    [decorators g, keyword "export", listed <|> standard <|> assigned <|> named <|> declared])

def expressionStatement : Reader Node :=
  node .expressionStatement (seq [child .item (expression g), semicolon])

def emptyStatement : Reader Node := group [punct ';']

def ofWord (w : String) : Reader Node :=
  match w with
  | "if" => ifStatement g
  | "while" => whileStatement g
  | "do" => doStatement g
  | "for" => forStatement g
  | "switch" => switchStatement g
  | "try" => tryStatement g
  | "with" => withStatement g
  | "return" | "throw" | "break" | "continue" | "debugger" => jump g
  | "import" => importStatement g <|> importAlias <|> expressionStatement g
  | "export" => exportStatement g
  | "declare" => ambient g <|> labelled g <|> expressionStatement g
  | "let" | "const" | "var" | "function" | "async" | "class" | "abstract" | "interface" |
    "type" | "enum" | "namespace" | "module" =>
    declarationStatement g <|> labelled g <|> expressionStatement g
  | _ => labelled g <|> expressionStatement g

def statement : Reader Node := do
  match ← peek with
  | none => failure
  | some c =>
    if c == '{' then block g
    else if c == ';' then emptyStatement
    else if c == '@' then exportStatement g <|> classExpression g
    else if isWordChar c && !c.isDigit then
      ofWord g (← nextWord)
    else expressionStatement g

end TokenLint.Source.Grammar
