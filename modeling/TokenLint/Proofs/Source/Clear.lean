import TokenLint.Proofs.Source.Nesting

/-!
# Ranges clear of elements

A range at a node is clear when no element below the node reaches into it. The names and the ends
of children are such ranges.
-/
namespace TokenLint.Source.Node

open Text

variable {n c : Node}

/-- The range is apart from the elements below the node. -/
def Clear (n : Node) (span : Span) : Prop :=
  ∀ m ∈ n.inside, m.kind = .jsxElement → span.Apart m.span

theorem Clear.mono {a b : Span} (h : n.Clear b) (hab : a.Within b) : n.Clear a :=
  fun m hm hk => (h m hm hk).mono hab (Span.Within.refl _)

/-- The place behind a child is apart from every other child, and from that child. -/
theorem Nests.stop_apart {d : Node} (hn : n.Nests) (hc : c ∈ n.children) (hd : d ∈ n.children)
    (hcle : c.start ≤ c.stop) : (⟨c.stop, c.stop⟩ : Span).Apart d.span := by
  rcases hn.eq_or_apart hc hd with rfl | hapart
  · exact Or.inr (Nat.le_refl _)
  · unfold Span.Apart span at *
    dsimp only at *
    omega

theorem clear_start (hn : ∀ m ∈ n.preorder, m.Nests) : n.Clear ⟨n.start, n.start⟩ :=
  fun _ hm _ => Or.inl (within_of_mem_inside hn hm).1

theorem clear_stop (hn : ∀ m ∈ n.preorder, m.Nests) : n.Clear ⟨n.stop, n.stop⟩ :=
  fun _ hm _ => Or.inr (within_of_mem_inside hn hm).2

/-- What is clear at a child is clear at the node, if the child is no element itself. -/
theorem clear_of_child (hn : ∀ m ∈ n.preorder, m.Nests) (hc : c ∈ n.children)
    (hk : c.kind ≠ .jsxElement) {a : Span} (ha : a.Within c.span) (hclear : c.Clear a) :
    n.Clear a := by
  intro m hm hmk
  rcases mem_or_apart hn hc hm with hmc | hapart
  · have hne : m.kind ≠ c.kind := by rw [hmk]; exact hk.symm
    exact hclear m (mem_inside_of_kind_ne hmc hne) hmk
  · exact hapart.symm.mono ha (Span.Within.refl _)

theorem clear_child_stop (hn : ∀ m ∈ n.preorder, m.Nests) (hc : c ∈ n.children) :
    n.Clear ⟨c.stop, c.stop⟩ := by
  intro m hm _
  obtain ⟨d, hd, hmd⟩ := mem_inside.mp hm
  have hcn := hn c (mem_preorder_of_mem_children hc)
  have hdn := nests_of_mem hn (mem_preorder_of_mem_children hd)
  have hapart := (hn n (mem_preorder_self n)).stop_apart hc hd hcn.ordered
  exact hapart.mono (Span.Within.refl _) (within_of_mem_preorder hdn hmd)

theorem clear_child (hn : ∀ m ∈ n.preorder, m.Nests) (hc : c ∈ n.children) (h : c.NoElement) :
    n.Clear c.span := by
  intro m hm hmk
  rcases mem_or_apart hn hc hm with hmc | hapart
  · exact absurd hmk (h m hmc)
  · exact hapart.symm

end TokenLint.Source.Node
