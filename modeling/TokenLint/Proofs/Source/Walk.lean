import Mathlib.Data.List.Basic
import TokenLint.Source.TreeCursor

/-!
# The walk over a tree follows its structure

A cursor goes down, on and up by what it sees around it. Its walk is shown to be the recursion over
the tree in which a node is met, then the subtree of each child: `preorder` with the parents beside
the nodes. What carries the proof is the route of a cursor: the subtree here, then the subtrees
that stand behind the node and behind each node above it.
-/
namespace TokenLint.Source

namespace Node

/-- What holds of a node when it holds of its children holds of every node. -/
theorem child_induction {P : Node → Prop} (step : ∀ n, (∀ c ∈ n.children, P c) → P n) :
    ∀ n, P n
  | mk k r s e cs => step (mk k r s e cs) fun c (_ : c ∈ cs) => child_induction step c

theorem preorderAll_eq (ns : List Node) : preorderAll ns = ns.flatMap preorder := by
  induction ns with
  | nil => rfl
  | cons n ns ih => rw [preorderAll, ih, List.flatMap_cons]

theorem preorder_eq (n : Node) : n.preorder = n :: n.children.flatMap preorder := by
  cases n with
  | mk k r s e cs => rw [preorder, preorderAll_eq, children]

mutual
theorem length_preorder : ∀ n : Node, n.preorder.length = n.count
  | mk _ _ _ _ cs => by rw [preorder, List.length_cons, length_preorderAll cs, count]

theorem length_preorderAll : ∀ ns : List Node, (preorderAll ns).length = countAll ns
  | [] => rfl
  | n :: ns => by
    rw [preorderAll, List.length_append, length_preorder n, length_preorderAll ns, countAll]
end

theorem count_le_countAll {c : Node} {cs : List Node} (hc : c ∈ cs) : c.count ≤ countAll cs := by
  induction cs with
  | nil => cases hc
  | cons d cs ih =>
    rw [countAll]
    rcases List.mem_cons.mp hc with rfl | hc
    · exact Nat.le_add_right _ _
    · exact Nat.le_trans (ih hc) (Nat.le_add_left _ _)

/-- A child has fewer nodes than its parent. -/
theorem count_lt_of_mem_children {n c : Node} (hc : c ∈ n.children) : c.count < n.count := by
  rw [count_eq n]
  exact Nat.lt_succ_of_le (count_le_countAll hc)

theorem mem_preorder_self (n : Node) : n ∈ n.preorder := by
  rw [preorder_eq]
  exact List.mem_cons_self

/-- The nodes below a node: the subtrees of its children. -/
def inside (n : Node) : List Node := n.children.flatMap preorder

theorem mem_preorder {n m : Node} : m ∈ n.preorder ↔ m = n ∨ m ∈ n.inside := by
  rw [preorder_eq, List.mem_cons, inside]

theorem mem_inside {n m : Node} : m ∈ n.inside ↔ ∃ c ∈ n.children, m ∈ c.preorder :=
  List.mem_flatMap

theorem mem_inside_of_mem_children {n c : Node} (hc : c ∈ n.children) : c ∈ n.inside :=
  mem_inside.mpr ⟨c, hc, mem_preorder_self c⟩

theorem mem_preorder_of_mem_children {n c : Node} (hc : c ∈ n.children) : c ∈ n.preorder :=
  mem_preorder.mpr (Or.inr (mem_inside_of_mem_children hc))

/-- A subtree's nodes are nodes of the tree. -/
theorem mem_preorder_trans {n : Node} :
    ∀ {m l : Node}, m ∈ n.preorder → l ∈ m.preorder → l ∈ n.preorder := by
  induction n using child_induction with
  | step n ih =>
    intro m l hm hl
    rcases mem_preorder.mp hm with rfl | hinside
    · exact hl
    · obtain ⟨c, hc, hmc⟩ := mem_inside.mp hinside
      exact mem_preorder.mpr (Or.inr (mem_inside.mpr ⟨c, hc, ih c hc hmc hl⟩))

theorem mem_preorder_child {n m c : Node} (hm : m ∈ n.preorder) (hc : c ∈ m.children) :
    c ∈ n.preorder :=
  mem_preorder_trans hm (mem_preorder_of_mem_children hc)

end Node

namespace TreeCursor

mutual
/-- The cursors on the nodes of a subtree, given the siblings behind its root and the nodes above
it. -/
def subtree : Node → List Node → List Level → List TreeCursor
  | .mk k r s e cs, behind, above =>
    ⟨⟨.mk k r s e cs, behind⟩, above⟩ :: subtrees cs (⟨.mk k r s e cs, behind⟩ :: above)

def subtrees : List Node → List Level → List TreeCursor
  | [], _ => []
  | n :: ns, above => subtree n ns above ++ subtrees ns above
end

theorem subtree_eq (c : TreeCursor) :
    subtree c.node c.here.behind c.above = c :: subtrees c.node.children (c.here :: c.above) := by
  obtain ⟨⟨⟨k, r, s, e, cs⟩, behind⟩, above⟩ := c
  rfl

/-- The cursors on what stands behind some nodes. -/
def onward : List Level → List TreeCursor
  | [] => []
  | l :: ls => subtrees l.behind ls ++ onward ls

theorem onward_cons (l : Level) (ls : List Level) :
    onward (l :: ls) = subtrees l.behind ls ++ onward ls := rfl

/-- The cursors that are still to come, this one first. -/
def route (c : TreeCursor) : List TreeCursor :=
  subtree c.node c.here.behind c.above ++ onward (c.here :: c.above)

/-- Past a node the route is that of the cursor to which the walk climbs, or has ended. -/
theorem onward_eq (c : TreeCursor) : onward (c.here :: c.above) = c.past?.elim [] route := by
  fun_induction past? c with
  | case1 c d hnext =>
    obtain ⟨hbehind, habove⟩ := nextSibling?_eq_some hnext
    rw [Option.elim_some, route, onward, onward, hbehind, habove, subtrees, List.append_assoc]
  | case2 c hnext p hparent ih =>
    -- the last of its siblings: what is past it is what is past its parent
    rw [onward, nextSibling?_eq_none hnext, subtrees, List.nil_append, parent?_eq_some hparent, ih]
  | case3 c hnext hparent =>
    rw [onward, nextSibling?_eq_none hnext, subtrees, parent?_eq_none hparent, onward]
    rfl

/-- One move of a walk takes one cursor off the route. -/
theorem route_eq (c : TreeCursor) : c.route = c :: c.next?.elim [] route := by
  rw [route, subtree_eq, List.cons_append]
  congr 1
  unfold next?
  split
  · rename_i d hchild
    obtain ⟨hchildren, habove⟩ := firstChild?_eq_some hchild
    rw [Option.elim_some, route, hchildren, habove, subtrees, onward_cons d.here,
      List.append_assoc]
  · rename_i hchild
    rw [firstChild?_eq_none hchild, subtrees, List.nil_append, onward_eq]

/-- The cursors that the moves of a walk lead through, up to one from which there is no move. -/
inductive Trace : TreeCursor → List TreeCursor → Prop
  | ends {c : TreeCursor} (h : c.next? = none) : Trace c [c]
  | moves {c d : TreeCursor} {cs : List TreeCursor} (h : c.next? = some d) (rest : Trace d cs) :
      Trace c (c :: cs)

theorem trace_walk (c : TreeCursor) : Trace c c.walk := by
  fun_induction walk c with
  | case1 c d hnext ih => exact .moves hnext ih
  | case2 c hnext => exact .ends hnext

/-- A walk takes its whole route. -/
theorem walk_eq (c : TreeCursor) : c.walk = c.route := by
  fun_induction walk c with
  | case1 c d hnext ih => rw [route_eq, hnext, Option.elim_some, ih]
  | case2 c hnext => rw [route_eq, hnext, Option.elim_none]

end TreeCursor

theorem Node.cursors_eq (root : Node) : root.cursors = TreeCursor.subtree root [] [] := by
  rw [cursors, TreeCursor.walk_eq, TreeCursor.route]
  exact List.append_nil _

namespace Visit

mutual
/-- The visits of a subtree, given the parent of its root. -/
def subtree (parent : Option Node) : Node → List Visit
  | .mk k r s e cs => ⟨parent, .mk k r s e cs⟩ :: subtrees (some (.mk k r s e cs)) cs

def subtrees (parent : Option Node) : List Node → List Visit
  | [] => []
  | n :: ns => subtree parent n ++ subtrees parent ns
end

theorem subtrees_eq (parent : Option Node) (ns : List Node) :
    subtrees parent ns = ns.flatMap (subtree parent) := by
  induction ns with
  | nil => rw [subtrees, List.flatMap_nil]
  | cons n ns ih => rw [subtrees, ih, List.flatMap_cons]

/-- The visits that follow on one to a node, down in its subtree. -/
def inside (v : Visit) : List Visit := v.node.children.flatMap (subtree (some v.node))

theorem subtree_eq (parent : Option Node) (n : Node) :
    subtree parent n = ⟨parent, n⟩ :: inside ⟨parent, n⟩ := by
  cases n with
  | mk k r s e cs => rw [subtree, subtrees_eq, inside, Node.children]

mutual
theorem map_visit_subtree : ∀ n behind above,
    (TreeCursor.subtree n behind above).map TreeCursor.visit = subtree (above.head?.map (·.node)) n
  | .mk k r s e cs, behind, above => by
    rw [TreeCursor.subtree, List.map_cons, map_visit_subtrees, subtree]
    rfl

theorem map_visit_subtrees : ∀ ns above,
    (TreeCursor.subtrees ns above).map TreeCursor.visit = subtrees (above.head?.map (·.node)) ns
  | [], _ => rfl
  | n :: ns, above => by
    rw [TreeCursor.subtrees, List.map_append, map_visit_subtree, map_visit_subtrees, subtrees]
end

theorem map_node_subtree (n : Node) :
    ∀ parent, (subtree parent n).map (·.node) = n.preorder := by
  induction n using Node.child_induction with
  | step n ih =>
    intro parent
    rw [subtree_eq, Node.preorder_eq, List.map_cons, inside, List.map_flatMap]
    exact congrArg (n :: ·) (List.flatMap_congr fun c hc => ih c hc (some n))

theorem map_node_inside (v : Visit) : v.inside.map (·.node) = v.node.inside := by
  rw [inside, List.map_flatMap, Node.inside]
  exact List.flatMap_congr fun c _ => map_node_subtree c (some v.node)

theorem node_mem_inside {v w : Visit} (h : w ∈ v.inside) : w.node ∈ v.node.inside := by
  rw [← map_node_inside]
  exact List.mem_map_of_mem h

end Visit

namespace Node

theorem visits_eq (root : Node) : root.visits = Visit.subtree none root := by
  rw [visits, cursors_eq, Visit.map_visit_subtree, List.head?_nil, Option.map_none]

theorem map_node_visits (root : Node) : root.visits.map (·.node) = root.preorder := by
  rw [visits_eq, Visit.map_node_subtree]

theorem mem_descendants {root n : Node} : n ∈ root.descendants ↔ n ∈ root.preorder := by
  rw [descendants, map_node_visits]

theorem exists_visit {root n : Node} (h : n ∈ root.preorder) : ∃ v ∈ root.visits, v.node = n := by
  rw [← map_node_visits] at h
  exact List.mem_map.mp h

theorem node_mem_preorder {root : Node} {v : Visit} (h : v ∈ root.visits) :
    v.node ∈ root.preorder := by
  rw [← map_node_visits]
  exact List.mem_map_of_mem h

end Node
end TokenLint.Source
