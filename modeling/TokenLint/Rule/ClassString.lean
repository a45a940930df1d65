import TokenLint.Source.Literal
import TokenLint.Source

/-!
# Class strings of an expression

The texts that an expression can contribute to a class list, as far as they can be seen without
running it. Interpolations are not followed; of an object the keys with the value `true` count.
-/
namespace TokenLint.Source

/-- What kind of expression it is, parentheses aside. -/
inductive Shape where
  | string
  | template
  | array
  | object
  /-- The call of a function by its plain name. -/
  | call
  | ternary
  | concat
  | logical
  | other
  deriving DecidableEq, Repr

namespace Node

/-- The shape of an expression that stands in no parentheses. -/
def bareShape (n : Node) : Shape :=
  match n.kind with
  | .string => .string
  | .template => .template
  | .array => .array
  | .object => .object
  | .call =>
    let named := (n.child? .callee).any (·.kind == .identifier)
    let listed := (n.child? .arguments).any (·.kind == .arguments)
    if named && listed then .call else .other
  | .ternary =>
    if (n.child? .consequence).isSome && (n.child? .alternative).isSome then .ternary else .other
  | .binary op =>
    if (n.child? .left).isSome && (n.child? .right).isSome then
      match op with
      | .plus => .concat
      | .choice => .logical
      | .other => .other
    else .other
  | _ => .other

def shape (n : Node) : Shape := n.bare.bareShape

/-- The text of a key whose value is `true`. -/
def trueKey? (pair : Node) : Option Span :=
  if pair.kind != .pair then none
  else do
    let key ← pair.child? .key
    let value ← pair.child? .value
    if value.kind != .trueLiteral then none
    else if key.kind == .string then some key.content
    else if key.kind == .propertyName then some key.span
    else none

mutual
/-- The ranges of the class strings of an expression. Functions whose names are helpers pass their
arguments on. -/
def classSpans (isHelper : Span → Bool) : Node → List Span
  | .mk kind role start stop children =>
    let n : Node := .mk kind role start stop children
    if kind == .parenthesized then firstClassSpans isHelper children
    else match n.bareShape with
      | .string => [n.content]
      | .template => n.quasis
      | .array => allClassSpans isHelper children
      | .object => children.filterMap trueKey?
      | .call =>
        if (n.child? .callee).any fun f => isHelper f.span then
          argumentClassSpans isHelper children
        else []
      | .ternary => roleClassSpans isHelper .consequence .alternative children
      | .concat | .logical => roleClassSpans isHelper .left .right children
      | .other => []

/-- Of the first node alone. -/
def firstClassSpans (isHelper : Span → Bool) : List Node → List Span
  | [] => []
  | n :: _ => n.classSpans isHelper

def allClassSpans (isHelper : Span → Bool) : List Node → List Span
  | [] => []
  | n :: ns => n.classSpans isHelper ++ allClassSpans isHelper ns

/-- Of the nodes in either of two roles. -/
def roleClassSpans (isHelper : Span → Bool) (a b : Role) : List Node → List Span
  | [] => []
  | n :: ns =>
    (if n.role == a || n.role == b then n.classSpans isHelper else []) ++
      roleClassSpans isHelper a b ns

/-- Of the arguments in an argument list among some nodes. -/
def argumentClassSpans (isHelper : Span → Bool) : List Node → List Span
  | [] => []
  | .mk _ role _ _ children :: ns =>
    (if role == .arguments then allClassSpans isHelper children else []) ++
      argumentClassSpans isHelper ns
end

end Node
end TokenLint.Source

namespace TokenLint.SourceFile

/-- The class strings of an expression in source order. -/
def classStrings (file : SourceFile) (helpers : List String) (n : Source.Node) : List String :=
  (n.classSpans fun f => helpers.contains (file.slice f)).map file.slice

end TokenLint.SourceFile
