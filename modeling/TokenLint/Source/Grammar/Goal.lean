import TokenLint.Source.Token

/-!
# The recursive parts of the grammar

Each part of the grammar is a plain definition over a `Grammar`: readers for the goals that it
may contain. `Source.parse` ties the knot.
-/
namespace TokenLint.Source

/-- What surrounds an expression and restricts it. -/
structure Mode where
  /-- The word `in` is an operator: not so in the head of a loop. -/
  allowIn : Bool
  /-- A colon behind parentheses may give an arrow function's type. -/
  arrowType : Bool

def Mode.plain : Mode := ⟨true, true⟩

inductive Goal where
  | statement
  /-- Expressions separated by commas. -/
  | expression (mode : Mode)
  /-- One expression without a comma. -/
  | assignment (mode : Mode)
  | unary
  /-- A name, with members and calls behind it. -/
  | access
  | typeExpr
  /-- A type that is no condition. -/
  | plainType
  /-- The target of a binding. -/
  | target
  | element

/-- How each goal is read. -/
abbrev Grammar := Goal → Reader Node

namespace Grammar
open Reader

variable (g : Grammar)

def expression : Reader Node := g (.expression .plain)

def assignment : Reader Node := g (.assignment .plain)

/-- The parts of one kind of node under no name of their own. -/
def group (parts : List (Reader (List Node))) : Reader Node := node .other (seq parts)

def ascription : Reader (List Node) :=
  seq [punct ':', child .item (g .typeExpr)]

def typeArguments : Reader Node :=
  group [punct '<', commaList (child .item (g .typeExpr)), punct '>']

def typeParameter : Reader Node :=
  group
    [many do
       let m ← keywordOf ["const", "in", "out"]
       require (← ahead (do let _ ← word))
       return m,
     child .item identifier,
     opt (seq [keyword "extends", child .item (g .typeExpr)]),
     opt (seq [token (mark "=" ['=', '>']), child .item (g .typeExpr)])]

def typeParameters : Reader Node :=
  group [punct '<', commaList (child .item (typeParameter g)), punct '>']

/-- A computed name. -/
def computedName : Reader Node :=
  group [punct '[', child .item (assignment g), punct ']']

/-- The name of a member of an object, a class or an object type. -/
def memberName : Reader Node :=
  propertyName <|> quoted <|> number <|> privateName <|> computedName g

def decorator : Reader Node :=
  group [punct '@', child .item (g .access)]

def decorators : Reader (List Node) := many (child .item (decorator g))

/-- Words that qualify what follows; each only counts when `next` comes behind it. -/
def modifiers (ws : List String) (next : Reader Unit) : Reader (List Node) :=
  many do
    let m ← keywordOf ws
    require (← ahead next)
    return m

/-- The beginning of a binding target. -/
def targetStart : Reader Unit := do
  let _ ← one fun c => isWordChar c && !c.isDigit || c == '{' || c == '[' || c == '.'

def parameter : Reader Node :=
  group
    [decorators g,
     modifiers ["public", "private", "protected", "readonly", "override"] targetStart,
     opt (punctText "..."),
     child .item (g .target),
     opt (punct '?'),
     opt (ascription g),
     opt (seq [token (mark "=" ['=', '>']), child .item (assignment g)])]

def parameters : Reader Node :=
  group [punct '(', commaList (child .item (parameter g)), punct ')']

end Grammar
end TokenLint.Source
