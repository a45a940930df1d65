import TokenLint.Edit
import TokenLint.Source.Literal
import TokenLint.Source

/-!
# Elements under change

An element with a closing tag, as the edits see it: its tag's name, its attributes, and its
classes where the class attribute is a plain string.
-/
namespace TokenLint

/-- A markup element that has an opening and perhaps a closing tag. -/
structure Element where
  node : Source.Node
  opening : Source.Node
  closing : Option Source.Node

/-- The classes of an element, and where they stand. -/
structure ClassList where
  /-- The whole attribute. -/
  holder : Source.Node
  value : Source.Node
  /-- The end of what stands before the attribute. -/
  before : Nat
  classes : List String

namespace Element
open Source

def ofNode? (n : Node) : Option Element :=
  if n.kind == .jsxElement then
    (n.child? .openTag).map fun opening => ⟨n, opening, n.child? .closeTag⟩
  else none

/-- All elements of a file in document order. -/
def all (file : SourceFile) : List Element := file.root.descendants.filterMap ofNode?

/-- The name in the opening tag; an element without one has the empty name. -/
def tagName (e : Element) (file : SourceFile) : String :=
  ((e.opening.child? .name).map file.nodeText).getD ""

/-- Attributes and spreads, in order. -/
def attributes (e : Element) : List Node := e.opening.children.filter (·.role == .attribute)

/-- An attribute's name; a spread has none. -/
def attributeName? (file : SourceFile) (n : Node) : Option String :=
  if n.kind == .jsxAttribute then n.children.head?.map file.nodeText else none

def hasAttribute (e : Element) (file : SourceFile) (name : String) : Bool :=
  e.attributes.any fun n => attributeName? file n == some name

/-- Attributes that hold classes. -/
def classAttributes : List String := ["className", "class"]

def isClassAttribute (file : SourceFile) (n : Node) : Bool :=
  n.role == .attribute && (attributeName? file n).any classAttributes.contains

/-- The first class attribute among some children, with the end of the child before it. -/
def classHolder? (file : SourceFile) : Option Nat → List Node → Option (Node × Nat)
  | _, [] => none
  | before, n :: ns =>
    if isClassAttribute file n then some (n, before.getD n.start)
    else classHolder? file (some n.stop) ns

/-- The classes, if the first class attribute is a string. -/
def classList? (e : Element) (file : SourceFile) : Option ClassList := do
  let (holder, before) ← classHolder? file none e.opening.children
  let value ← holder.children[1]?
  if value.kind == .string then
    return ⟨holder, value, before, Text.words (file.slice value.content)⟩
  else none

/-- Edits that give both tags another name. -/
def rename (e : Element) (name : String) : EditPlan :=
  (e.opening :: e.closing.toList).filterMap fun tag =>
    (tag.child? .name).map fun n => ⟨n.span, name⟩

/-- Edits that add attributes behind the last one, or else behind the name. -/
def addProps (e : Element) (props : List String) : EditPlan :=
  if props.isEmpty then []
  else
    match e.attributes.getLast?.or (e.opening.child? .name) with
    | none => []
    | some anchor => [.insert anchor.stop (String.join (props.map (" " ++ ·)))]

end Element

namespace ClassList

def has (c : ClassList) (name : String) : Bool := c.classes.contains name

/-- The edit that keeps some classes, each once; when none is kept the attribute goes, with the
blanks before it. -/
def retain (c : ClassList) (keep : String → Bool) : Edit :=
  match Text.distinct (c.classes.filter keep) with
  | [] => .delete ⟨c.before, c.holder.stop⟩
  | kept => ⟨c.value.content, " ".intercalate kept⟩

end ClassList
end TokenLint
