import TokenLint.Text

/-!
# Nodes of a parsed source file

A node has a kind, the role it plays in its parent, a byte range and its children in source
order. Punctuation has no node; comments do. Kinds that no rule looks at are `other`.
-/
namespace TokenLint.Source

/-- What the operator of a binary expression does to its operands. -/
inductive BinaryOp where
  /-- Joins two texts or adds two numbers. -/
  | plus
  /-- Yields one of its operands: conjunction, disjunction or null coalescing. -/
  | choice
  | other
  deriving DecidableEq, Repr

inductive Kind where
  | program
  | comment
  /-- A quoted string, or the type keyword `string`. -/
  | string
  | template
  /-- An interpolated expression inside a template. -/
  | substitution
  | identifier
  /-- A plain name behind a dot or before a colon. -/
  | propertyName
  | trueLiteral
  | array
  | object
  | pair
  | call
  | construction
  | arguments
  | member
  | parenthesized
  | ternary
  | binary (op : BinaryOp)
  | assignment
  | declarator
  | declaration
  | expressionStatement
  | exportStatement
  | importStatement
  /-- The word that makes an import type-only. -/
  | typeMarker
  | importClause
  | namespaceImport
  | namedImports
  | importSpecifier
  | jsxElement
  | jsxOpening
  | jsxClosing
  | jsxAttribute
  /-- An expression container, or a spread attribute. -/
  | jsxExpression
  | other
  deriving DecidableEq, Repr

/-- The part a node plays in its parent. -/
inductive Role where
  | item
  | name
  | alias
  | key
  | value
  | left
  | right
  | object
  | property
  | callee
  | arguments
  | consequence
  | alternative
  | source
  | declaration
  | openTag
  | closeTag
  | attribute
  deriving DecidableEq, Repr

inductive Node where
  | mk (kind : Kind) (role : Role) (start stop : Nat) (children : List Node)
  deriving Repr

namespace Node

def kind : Node → Kind
  | mk k _ _ _ _ => k

def role : Node → Role
  | mk _ r _ _ _ => r

/-- Offset of the first byte. -/
def start : Node → Nat
  | mk _ _ s _ _ => s

/-- Offset behind the last byte. -/
def stop : Node → Nat
  | mk _ _ _ e _ => e

def span (n : Node) : Span := ⟨n.start, n.stop⟩

def children : Node → List Node
  | mk _ _ _ _ cs => cs

def as (role : Role) : Node → Node
  | mk k _ s e cs => mk k role s e cs

/-- The first child in a role. -/
def child? (n : Node) (role : Role) : Option Node :=
  n.children.find? (·.role == role)

/-- The first child of a kind. -/
def childOf? (n : Node) (kind : Kind) : Option Node :=
  n.children.find? (·.kind == kind)

mutual
/-- How many nodes there are, the root included. -/
def count : Node → Nat
  | mk _ _ _ _ cs => countAll cs + 1

def countAll : List Node → Nat
  | [] => 0
  | n :: ns => n.count + countAll ns
end

theorem count_eq (n : Node) : n.count = countAll n.children + 1 := by
  cases n with
  | mk k r s e cs => rw [count, children]

mutual
/-- The node, then each child's subtree in turn. -/
def preorder : Node → List Node
  | mk k r s e cs => mk k r s e cs :: preorderAll cs

def preorderAll : List Node → List Node
  | [] => []
  | n :: ns => n.preorder ++ preorderAll ns
end

/-- Looks through parentheses. -/
def bare : Node → Node
  | mk .parenthesized r s e [] => mk .parenthesized r s e []
  | mk .parenthesized _ _ _ (c :: _) => c.bare
  | n => n

end Node
end TokenLint.Source
