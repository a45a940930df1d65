import TokenLint.Source.Node

/-!
# A cursor on a tree

A cursor stands on a node and moves to its first child, to its next sibling or to its parent. A
walk moves down where it can; otherwise it moves to the next sibling of the node or of the nearest
node above that has one, and it ends where there is none. Each move of a walk leaves one node less
ahead, so the walk ends.
-/
namespace TokenLint.Source

/-- A node, and the siblings behind it. -/
structure Level where
  node : Node
  behind : List Node

/-- A place in a tree: a node, and the nodes above it, its parent first. -/
structure TreeCursor where
  here : Level
  above : List Level

/-- A node met on a walk, with its parent. -/
structure Visit where
  parent : Option Node
  node : Node

namespace TreeCursor

def start (root : Node) : TreeCursor := ⟨⟨root, []⟩, []⟩

def node (c : TreeCursor) : Node := c.here.node

def visit (c : TreeCursor) : Visit := ⟨c.above.head?.map (·.node), c.node⟩

/-! ### Moves -/

def firstChild? (c : TreeCursor) : Option TreeCursor :=
  match c.node.children with
  | [] => none
  | n :: ns => some ⟨⟨n, ns⟩, c.here :: c.above⟩

def nextSibling? (c : TreeCursor) : Option TreeCursor :=
  match c.here.behind with
  | [] => none
  | n :: ns => some ⟨⟨n, ns⟩, c.above⟩

def parent? (c : TreeCursor) : Option TreeCursor :=
  match c.above with
  | [] => none
  | l :: ls => some ⟨l, ls⟩

variable {c d p : TreeCursor}

theorem firstChild?_eq_some (h : c.firstChild? = some d) :
    c.node.children = d.node :: d.here.behind ∧ d.above = c.here :: c.above := by
  unfold firstChild? at h
  split at h
  · cases h
  · rename_i hchildren
    obtain rfl := Option.some.inj h
    exact ⟨hchildren, rfl⟩

theorem firstChild?_eq_none (h : c.firstChild? = none) : c.node.children = [] := by
  unfold firstChild? at h
  split at h
  · assumption
  · cases h

theorem nextSibling?_eq_some (h : c.nextSibling? = some d) :
    c.here.behind = d.node :: d.here.behind ∧ d.above = c.above := by
  unfold nextSibling? at h
  split at h
  · cases h
  · rename_i hbehind
    obtain rfl := Option.some.inj h
    exact ⟨hbehind, rfl⟩

theorem nextSibling?_eq_none (h : c.nextSibling? = none) : c.here.behind = [] := by
  unfold nextSibling? at h
  split at h
  · assumption
  · cases h

theorem parent?_eq_some (h : c.parent? = some p) : c.above = p.here :: p.above := by
  unfold parent? at h
  split at h
  · cases h
  · rename_i habove
    obtain rfl := Option.some.inj h
    exact habove

theorem parent?_eq_none (h : c.parent? = none) : c.above = [] := by
  unfold parent? at h
  split at h
  · assumption
  · cases h

/-- The next sibling of the node, or else of the nearest node above that has one. -/
def past? (c : TreeCursor) : Option TreeCursor :=
  match c.nextSibling? with
  | some d => some d
  | none =>
    match _h : c.parent? with
    | some p => p.past?
    | none => none
termination_by c.above.length
decreasing_by simp [parent?_eq_some _h]

/-- Where a walk goes on. -/
def next? (c : TreeCursor) : Option TreeCursor :=
  match c.firstChild? with
  | some d => some d
  | none => c.past?

/-! ### Walks -/

/-- How many nodes there are in the trees behind some nodes. -/
def waiting : List Level → Nat
  | [] => 0
  | l :: ls => Node.countAll l.behind + waiting ls

/-- How many nodes a walk has still to meet, this one included. -/
def ahead (c : TreeCursor) : Nat := c.node.count + waiting (c.here :: c.above)

theorem ahead_of_past? (h : c.past? = some d) : d.ahead = waiting (c.here :: c.above) := by
  fun_induction past? c with
  | case1 c e hnext =>
    obtain rfl := Option.some.inj h
    obtain ⟨hbehind, habove⟩ := nextSibling?_eq_some hnext
    rw [ahead, waiting, waiting, hbehind, habove, Node.countAll, Nat.add_assoc]
  | case2 c hnext p hparent ih =>
    rw [ih h, ← parent?_eq_some hparent, waiting, nextSibling?_eq_none hnext, Node.countAll,
      Nat.zero_add]
  | case3 => cases h

/-- Each move of a walk leaves one node less ahead. -/
theorem ahead_of_next? (h : c.next? = some d) : c.ahead = d.ahead + 1 := by
  unfold next? at h
  split at h
  · rename_i hchild
    obtain rfl := Option.some.inj h
    obtain ⟨hchildren, habove⟩ := firstChild?_eq_some hchild
    simp only [ahead, Node.count_eq c.node, hchildren, habove, Node.countAll, waiting]
    omega
  · rename_i hchild
    rw [ahead_of_past? h, ahead, Node.count_eq c.node, firstChild?_eq_none hchild, Node.countAll,
      Nat.zero_add, Nat.add_comm]

/-- The cursors of a walk from here to its end. -/
def walk (c : TreeCursor) : List TreeCursor :=
  match _h : c.next? with
  | some d => c :: d.walk
  | none => [c]
termination_by c.ahead
decreasing_by simp [ahead_of_next? _h]

end TreeCursor

namespace Node

/-- The cursors of a walk over the whole tree. -/
def cursors (root : Node) : List TreeCursor := (TreeCursor.start root).walk

/-- Every node below and including the root, in document order, with its parent. -/
def visits (root : Node) : List Visit := root.cursors.map TreeCursor.visit

/-- Every node below and including the root, in document order. -/
def descendants (root : Node) : List Node := root.visits.map (·.node)

end Node
end TokenLint.Source
