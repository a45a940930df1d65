import TokenLint.Source

/-!
# Attributes of markup elements

An attribute's first child is its name and its last one its value, when there are two or more.
-/
namespace TokenLint.Source.Node

/-- The value of an attribute. -/
def attributeValue? (n : Node) : Option Node :=
  match n.children with
  | _ :: value :: rest => (value :: rest).getLast?
  | _ => none

/-- The first child of a container, which is the expression unless a comment comes first. -/
def contained? (container : Node) : Option Node := container.children.head?

end TokenLint.Source.Node
