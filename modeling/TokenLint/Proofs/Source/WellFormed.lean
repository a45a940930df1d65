import Mathlib.Data.List.Pairwise
import TokenLint.Source
import TokenLint.Source.Literal
import TokenLint.Proofs.Source.Walk
import TokenLint.Proofs.Text.Cut

/-!
# Well-formed syntax trees

The children of a node lie inside it, in order and without overlap, and the grammar says where
literals, names, attributes and members stand. The ends of all nodes fall between characters of
the text, and so do the marks around a literal.
-/
namespace TokenLint

namespace Source.Node

/-- The children lie inside the node, in order and without overlap. -/
structure Nests (n : Node) : Prop where
  ordered : n.start ≤ n.stop
  inner : ∀ c ∈ n.children, n.start ≤ c.start ∧ c.stop ≤ n.stop
  apart : n.children.Pairwise fun a b => a.stop ≤ b.start

/-- No markup element is in the subtree. -/
def NoElement (n : Node) : Prop := ∀ m ∈ n.preorder, m.kind ≠ .jsxElement

/-- Kinds of nodes that have no children. -/
def leafKinds : List Kind := [.comment, .string, .identifier, .propertyName]

/-- The children stand where the grammar puts them. -/
structure Shaped (n : Node) : Prop where
  leaf : n.kind ∈ leafKinds → n.children = []
  /-- The inside of a template is text and interpolations. -/
  template : n.kind = .template → ∀ c ∈ n.children, c.kind = .substitution
  tags : n.kind = .jsxElement → ∀ c ∈ n.children,
    (c.role = .openTag → c.kind = .jsxOpening) ∧ (c.role = .closeTag → c.kind = .jsxClosing)
  tagName : n.kind = .jsxOpening ∨ n.kind = .jsxClosing →
    ∀ c ∈ n.children, c.role = .name → c.NoElement
  attributeName : n.kind = .jsxAttribute → ∀ c ∈ n.children.head?, c.NoElement
  /-- Nothing follows a string that is the value of an attribute. -/
  attributeValue : n.kind = .jsxAttribute → n.children[1]?.map kind = some .string →
    n.children.length = 2
  /-- A member has an object and a property; there may be comments beside them. -/
  member : n.kind = .member →
    (n.children.filter (·.kind ≠ .comment)).map role = [.object, .property]
  imported : n.kind = .importClause → n.NoElement

/-- The ends of the node are between characters of the text, and the marks around a literal are
characters of one byte. -/
structure Aligned (cs : List Char) (n : Node) : Prop where
  start : Text.IsBoundary cs n.start
  stop : Text.IsBoundary cs n.stop
  quoted : n.kind = .string ∨ n.kind = .template → 2 ≤ n.stop - n.start →
    Text.IsBoundary cs (n.start + 1) ∧ Text.IsBoundary cs (n.stop - 1)

end Source.Node

/-- The tree of a file is well formed and fits the file's text. -/
structure SourceFile.WellFormed (file : SourceFile) : Prop where
  program : file.root.kind = .program
  nests : ∀ n ∈ file.root.preorder, n.Nests
  shaped : ∀ n ∈ file.root.preorder, n.Shaped
  aligned : ∀ n ∈ file.root.preorder, n.Aligned file.text.toList

namespace Source.Node

theorem Aligned.isRange {cs : List Char} {n : Node} (h : n.Aligned cs) (hn : n.Nests) :
    Text.IsRange cs n.span :=
  ⟨hn.ordered, h.start, h.stop⟩

/-- The ends of a node lie within it. -/
theorem Nests.start_within {n : Node} (hn : n.Nests) :
    (⟨n.start, n.start⟩ : Span).Within n.span :=
  ⟨Nat.le_refl _, hn.ordered⟩

theorem Nests.stop_within {n : Node} (hn : n.Nests) :
    (⟨n.stop, n.stop⟩ : Span).Within n.span :=
  ⟨hn.ordered, Nat.le_refl _⟩

theorem Nests.head_before {n a b : Node} (hn : n.Nests) (ha : n.children.head? = some a)
    (hb : n.children[1]? = some b) : a.stop ≤ b.start := by
  obtain ⟨cs, hcs⟩ : ∃ cs, n.children = a :: cs := by
    cases hcs : n.children with
    | nil => rw [hcs] at ha; cases ha
    | cons c cs =>
      rw [hcs] at ha
      obtain rfl := Option.some.inj ha
      exact ⟨cs, rfl⟩
  have hapart := hn.apart
  rw [hcs] at hapart hb
  exact (List.pairwise_cons.mp hapart).1 b (List.mem_of_getElem? hb)

theorem content_within {n : Node} (hn : n.Nests) : n.content.Within n.span := by
  have hle := hn.ordered
  unfold content Span.Within span
  split <;> dsimp only <;> omega

/-- What a literal holds is a range of the text. -/
theorem Aligned.content_isRange {cs : List Char} {n : Node} (h : n.Aligned cs)
    (hk : n.kind = .string ∨ n.kind = .template) : Text.IsRange cs n.content := by
  unfold content
  split
  · exact ⟨Nat.le_refl _, h.start, h.start⟩
  · rename_i hlen
    obtain ⟨hstart, hstop⟩ := h.quoted hk (by omega)
    exact ⟨by dsimp only; omega, hstart, hstop⟩

instance (n : Node) : Decidable n.Nests :=
  decidable_of_iff (n.start ≤ n.stop ∧ (∀ c ∈ n.children, n.start ≤ c.start ∧ c.stop ≤ n.stop) ∧
      n.children.Pairwise fun a b => a.stop ≤ b.start)
    ⟨fun ⟨a, b, c⟩ => ⟨a, b, c⟩, fun h => ⟨h.ordered, h.inner, h.apart⟩⟩

instance (n : Node) : Decidable n.NoElement :=
  inferInstanceAs (Decidable (∀ m ∈ n.preorder, m.kind ≠ .jsxElement))

instance (n : Node) : Decidable n.Shaped :=
  decidable_of_iff
    ((n.kind ∈ leafKinds → n.children = []) ∧
     (n.kind = .template → ∀ c ∈ n.children, c.kind = .substitution) ∧
     (n.kind = .jsxElement → ∀ c ∈ n.children,
       (c.role = .openTag → c.kind = .jsxOpening) ∧ (c.role = .closeTag → c.kind = .jsxClosing)) ∧
     (n.kind = .jsxOpening ∨ n.kind = .jsxClosing →
       ∀ c ∈ n.children, c.role = .name → c.NoElement) ∧
     (n.kind = .jsxAttribute → ∀ c ∈ n.children.head?, c.NoElement) ∧
     (n.kind = .jsxAttribute → n.children[1]?.map kind = some .string →
       n.children.length = 2) ∧
     (n.kind = .member →
       (n.children.filter (·.kind ≠ .comment)).map role = [.object, .property]) ∧
     (n.kind = .importClause → n.NoElement))
    ⟨fun ⟨a, b, c, d, e, f, g, h⟩ => ⟨a, b, c, d, e, f, g, h⟩,
     fun h => ⟨h.leaf, h.template, h.tags, h.tagName, h.attributeName, h.attributeValue,
       h.member, h.imported⟩⟩

instance (cs : List Char) (n : Node) : Decidable (n.Aligned cs) :=
  decidable_of_iff
    (Text.IsBoundary cs n.start ∧ Text.IsBoundary cs n.stop ∧
      (n.kind = .string ∨ n.kind = .template → 2 ≤ n.stop - n.start →
        Text.IsBoundary cs (n.start + 1) ∧ Text.IsBoundary cs (n.stop - 1)))
    ⟨fun ⟨a, b, c⟩ => ⟨a, b, c⟩, fun h => ⟨h.start, h.stop, h.quoted⟩⟩

end Source.Node

instance (file : SourceFile) : Decidable file.WellFormed :=
  decidable_of_iff
    (file.root.kind = .program ∧ (∀ n ∈ file.root.preorder, n.Nests) ∧
      (∀ n ∈ file.root.preorder, n.Shaped) ∧
      ∀ n ∈ file.root.preorder, n.Aligned file.text.toList)
    ⟨fun ⟨a, b, c, d⟩ => ⟨a, b, c, d⟩, fun h => ⟨h.program, h.nests, h.shaped, h.aligned⟩⟩

end TokenLint
