import TokenLint.Edit
import TokenLint.Source.Literal
import TokenLint.Source

/-!
# Imports of names

Names are added to the first import of the module that can hold them; without one a declaration
goes behind the last import, else behind the directives, else to the front.
-/
namespace TokenLint.NamedImport
open Source

/-- The module that an import is from. -/
def module? (file : SourceFile) (n : Node) : Option String :=
  (n.child? .source).map fun s => file.slice s.content

/-- Whether an import is of types only. -/
def isTypeOnly (n : Node) : Bool := (n.childOf? .typeMarker).isSome

/-- Whether a statement is a directive such as `"use client"`. -/
def isDirective (n : Node) : Bool :=
  n.kind == .expressionStatement && n.children.head?.any (·.kind == .string)

/-- The name that a specifier binds. -/
def boundName? (file : SourceFile) (specifier : Node) : Option String :=
  ((specifier.child? .alias).or (specifier.child? .name)).map file.nodeText

/-- What is done to an import of the module. -/
inductive Outcome where
  /-- All names are there. -/
  | complete
  | extended (e : Edit)
  /-- Names cannot be added here. -/
  | unsuitable

def listed (names : List String) : String := ", ".intercalate names

/-- Adds the missing names to a list in braces. -/
def extendNamed (file : SourceFile) (named : Node) (names : List String) : Outcome :=
  let specifiers := named.children.filter (·.kind == .importSpecifier)
  let existing := specifiers.filterMap (boundName? file)
  let missing := names.filter (!existing.contains ·)
  if missing.isEmpty then .complete
  else
    match specifiers.getLast? with
    | some last => .extended (.insert last.stop s!", {listed missing}")
    | none => .extended ⟨named.span, "\x7b " ++ listed missing ++ " \x7d"⟩

/-- Adds names to an import's clause. -/
def extendClause (file : SourceFile) (clause : Node) (names : List String) : Outcome :=
  match clause.childOf? .namedImports, clause.childOf? .namespaceImport,
      clause.childOf? .identifier with
  | some named, _, _ => extendNamed file named names
  | none, some _, _ => .unsuitable
  | none, none, some default =>
    .extended (.insert default.stop (", \x7b " ++ listed names ++ " \x7d"))
  | none, none, none => .unsuitable

def extendImport (file : SourceFile) (module : String) (names : List String) (n : Node) :
    Outcome :=
  if module? file n != some module || isTypeOnly n then .unsuitable
  else
    match n.childOf? .importClause with
    | none => .unsuitable
    | some clause => extendClause file clause names

/-- The first suitable import's outcome. -/
def extendFirst (file : SourceFile) (module : String) (names : List String) :
    List Node → Outcome
  | [] => .unsuitable
  | n :: ns =>
    match extendImport file module names n with
    | .unsuitable => extendFirst file module names ns
    | outcome => outcome

/-- A new declaration, ended the way the last import is. -/
def declaration (module : String) (names : List String) (ended : Bool) : String :=
  "import \x7b " ++ listed names ++ " \x7d from \"" ++ module ++ "\"" ++ (if ended then ";" else "")

/-- Whether an import's text ends in a semicolon. -/
def isEnded (file : SourceFile) (n : Node) : Bool :=
  (Text.trimEnd (file.nodeText n)).toList.getLast? == some ';'

/-- The edit that adds a declaration. -/
def declare (file : SourceFile) (module : String) (names : List String)
    (statements : List Node) : Edit :=
  match (statements.filter (·.kind == .importStatement)).getLast? with
  | some last =>
    .insert last.stop ("\n" ++ declaration module names (isEnded file last))
  | none =>
    match (statements.takeWhile isDirective).getLast? with
    | some last => .insert last.stop ("\n\n" ++ declaration module names true)
    | none => .insert 0 (declaration module names true ++ "\n\n")

/-- The edits, at most one, after which names are imported from a module. -/
def ensure (file : SourceFile) (module : String) (names : List String) : EditPlan :=
  let statements := file.root.children
  match extendFirst file module names (statements.filter (·.kind == .importStatement)) with
  | .complete => []
  | .extended e => [e]
  | .unsuitable => [declare file module names statements]

end TokenLint.NamedImport
