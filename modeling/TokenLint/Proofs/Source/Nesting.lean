import Mathlib.Data.List.Pairwise
import TokenLint.Proofs.Source.WellFormed

/-!
# Nested or apart

Where every node holds its children in order, two nodes are nested or their ranges are apart.
This is stated for a node and a child of it, for the children of one node, and for any two visits
of a walk.
-/
namespace TokenLint.Source

namespace Node

variable {n : Node}

theorem nests_of_mem (hn : ∀ m ∈ n.preorder, m.Nests) {c : Node} (hc : c ∈ n.preorder) :
    ∀ m ∈ c.preorder, m.Nests :=
  fun m hm => hn m (mem_preorder_trans hc hm)

theorem Nests.child_within {c : Node} (hn : n.Nests) (hc : c ∈ n.children) :
    c.span.Within n.span := hn.inner c hc

/-- A subtree lies within the range of its root. -/
theorem within_of_mem_preorder (hn : ∀ m ∈ n.preorder, m.Nests) {m : Node}
    (hm : m ∈ n.preorder) : m.span.Within n.span := by
  induction n using child_induction with
  | step n ih =>
    rcases mem_preorder.mp hm with rfl | hinside
    · exact Span.Within.refl _
    · obtain ⟨c, hc, hmc⟩ := mem_inside.mp hinside
      have hcn := nests_of_mem hn (mem_preorder_of_mem_children hc)
      exact (ih c hc hcn hmc).trans ((hn n (mem_preorder_self n)).child_within hc)

theorem within_of_mem_inside (hn : ∀ m ∈ n.preorder, m.Nests) {m : Node} (hm : m ∈ n.inside) :
    m.span.Within n.span :=
  within_of_mem_preorder hn (mem_preorder.mpr (Or.inr hm))

/-- Two children of a node are the same or apart. -/
theorem Nests.eq_or_apart {c d : Node} (hn : n.Nests) (hc : c ∈ n.children)
    (hd : d ∈ n.children) : c = d ∨ c.span.Apart d.span := by
  by_cases he : c = d
  · exact Or.inl he
  · have hapart : n.children.Pairwise fun a b => a.span.Apart b.span := hn.apart.imp Or.inl
    have hsymm : Std.Symm fun a b : Node => a.span.Apart b.span := ⟨fun _ _ h => h.symm⟩
    exact Or.inr (hapart.forall hc hd he)

/-- What lies below a node is in the subtree of a given child or apart from that child. -/
theorem mem_or_apart (hn : ∀ m ∈ n.preorder, m.Nests) {c m : Node} (hc : c ∈ n.children)
    (hm : m ∈ n.inside) : m ∈ c.preorder ∨ m.span.Apart c.span := by
  obtain ⟨d, hd, hmd⟩ := mem_inside.mp hm
  rcases (hn n (mem_preorder_self n)).eq_or_apart hd hc with rfl | hapart
  · exact Or.inl hmd
  · have hdn := nests_of_mem hn (mem_preorder_of_mem_children hd)
    exact Or.inr (hapart.mono (within_of_mem_preorder hdn hmd) (Span.Within.refl _))

theorem mem_inside_of_kind_ne {m : Node} (hm : m ∈ n.preorder) (hk : m.kind ≠ n.kind) :
    m ∈ n.inside := by
  rcases mem_preorder.mp hm with rfl | hinside
  · exact absurd rfl hk
  · exact hinside

theorem inside_of_leaf (h : n.children = []) : n.inside = [] := by
  rw [inside, h, List.flatMap_nil]

theorem mem_children_of_child? {r : Role} {c : Node} (h : n.child? r = some c) :
    c ∈ n.children ∧ c.role = r :=
  ⟨List.mem_of_find?_eq_some h, by simpa using List.find?_some h⟩

theorem mem_children_of_childOf? {k : Kind} {c : Node} (h : n.childOf? k = some c) :
    c ∈ n.children ∧ c.kind = k :=
  ⟨List.mem_of_find?_eq_some h, by simpa using List.find?_some h⟩

end Node

namespace Visit

/-- Of two visits the first ends before the second begins, or the second follows on the first down
the tree. -/
theorem pairwise_subtree (n : Node) :
    ∀ parent, (∀ m ∈ n.preorder, m.Nests) → (subtree parent n).Pairwise fun v w =>
      v.node.stop ≤ w.node.start ∨ w ∈ v.inside := by
  induction n using Node.child_induction with
  | step n ih =>
    intro parent hn
    have hchild : ∀ c ∈ n.children, ∀ m ∈ c.preorder, m.Nests := fun c hc =>
      Node.nests_of_mem hn (Node.mem_preorder_of_mem_children hc)
    have hin : ∀ c ∈ n.children, ∀ v ∈ subtree (some n) c, v.node.span.Within c.span := by
      intro c hc v hv
      refine Node.within_of_mem_preorder (hchild c hc) ?_
      rw [← map_node_subtree c (some n)]
      exact List.mem_map_of_mem hv
    rw [subtree_eq, List.pairwise_cons]
    refine ⟨fun w hw => Or.inr hw, List.pairwise_flatMap.mpr ⟨fun c hc => ?_, ?_⟩⟩
    · exact ih c hc (some n) (hchild c hc)
    · refine (hn n (Node.mem_preorder_self n)).apart.imp_of_mem fun hc hd hcd v hv w hw => ?_
      have hvc := hin _ hc v hv
      have hwd := hin _ hd w hw
      exact Or.inl (Nat.le_trans hvc.2 (Nat.le_trans hcd hwd.1))

end Visit

theorem Node.pairwise_visits {root : Node} (hn : ∀ m ∈ root.preorder, m.Nests) :
    root.visits.Pairwise fun v w => v.node.stop ≤ w.node.start ∨ w ∈ v.inside := by
  rw [visits_eq]
  exact Visit.pairwise_subtree root none hn

/-- Of two nodes of a tree one stands apart from the other or below it. -/
theorem Node.apart_or_below {root m n : Node} (hn : ∀ m ∈ root.preorder, m.Nests)
    (hm : m ∈ root.preorder) (hmem : n ∈ root.preorder) :
    m.span.Apart n.span ∨ n ∈ m.preorder ∨ m ∈ n.preorder := by
  by_cases hne : m = n
  · rw [hne]
    exact .inr (.inl (mem_preorder_self n))
  · have hsymm : Std.Symm fun m n : Node =>
        m.span.Apart n.span ∨ n ∈ m.preorder ∨ m ∈ n.preorder :=
      ⟨fun _ _ h => h.imp Span.Apart.symm Or.symm⟩
    have hpair : root.preorder.Pairwise fun m n =>
        m.span.Apart n.span ∨ n ∈ m.preorder ∨ m ∈ n.preorder := by
      rw [← map_node_visits, List.pairwise_map]
      refine (pairwise_visits hn).imp fun h => h.imp Or.inl fun hinside => .inl ?_
      exact mem_preorder.mpr (.inr (Visit.node_mem_inside hinside))
    exact List.Pairwise.forall hpair hm hmem hne

/-- A node reaches over a leaf of the tree or is apart from it. -/
theorem Node.apart_or_within_of_leaf {root m n : Node} (hn : ∀ m ∈ root.preorder, m.Nests)
    (hm : m ∈ root.preorder) (hmem : n ∈ root.preorder) (hleaf : n.children = []) :
    m.span.Apart n.span ∨ n ∈ m.preorder := by
  refine (apart_or_below hn hm hmem).imp_right fun h => h.elim id fun hbelow => ?_
  rw [mem_preorder, inside_of_leaf hleaf] at hbelow
  rcases hbelow with rfl | hbelow
  · exact mem_preorder_self m
  · cases hbelow

end TokenLint.Source
