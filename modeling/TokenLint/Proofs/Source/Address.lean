import TokenLint.Proofs.Source.Walk

/-!
# Addresses of nodes

The address of a node says which child to take at each step down from the root, so two nodes that
look alike have different addresses. Addresses are ordered as words: one comes before those that go
on from it, and of two that part ways the one with the earlier child comes first. A walk over a
tree stands once at each address, in this order.
-/
namespace TokenLint.Source

namespace Node

/-- The node at an address. -/
def at? (n : Node) : List Nat → Option Node
  | [] => some n
  | i :: is => n.children[i]?.bind (·.at? is)

mutual
/-- The addresses in a tree, each before those that go on from it. -/
def addresses : Node → List (List Nat)
  | mk _ _ _ _ cs => [] :: addressesFrom 0 cs

def addressesFrom : Nat → List Node → List (List Nat)
  | _, [] => []
  | i, n :: ns => n.addresses.map (i :: ·) ++ addressesFrom (i + 1) ns
end

variable {n : Node} {a : List Nat}

theorem addresses_eq (n : Node) : n.addresses = [] :: addressesFrom 0 n.children := by
  cases n
  rfl

theorem mem_addressesFrom {i : Nat} {ns : List Node} : a ∈ addressesFrom i ns ↔
    ∃ j b c, a = (i + j) :: b ∧ ns[j]? = some c ∧ b ∈ c.addresses := by
  induction ns generalizing i with
  | nil => simp [addressesFrom]
  | cons n ns ih =>
    rw [addressesFrom, List.mem_append, List.mem_map, ih]
    constructor
    · rintro (⟨b, hb, rfl⟩ | ⟨j, b, c, rfl, hc, hb⟩)
      · exact ⟨0, b, n, rfl, rfl, hb⟩
      · exact ⟨j + 1, b, c, by rw [Nat.add_right_comm, Nat.add_assoc], hc, hb⟩
    · rintro ⟨_ | j, b, c, rfl, hc, hb⟩
      · obtain rfl := Option.some.inj hc
        exact .inl ⟨b, hb, rfl⟩
      · exact .inr ⟨j, b, c, by rw [Nat.add_right_comm, Nat.add_assoc], hc, hb⟩

theorem mem_addresses : a ∈ n.addresses ↔ ∃ m, n.at? a = some m := by
  induction n using child_induction generalizing a with
  | step n ih =>
    cases a with
    | nil => simp [addresses_eq, at?]
    | cons i b =>
      have hnil : i :: b ≠ [] := List.cons_ne_nil i b
      rw [addresses_eq, List.mem_cons, mem_addressesFrom]
      simp only [hnil, false_or, Nat.zero_add, List.cons.injEq, at?, Option.bind_eq_some_iff]
      constructor
      · rintro ⟨_, _, c, ⟨rfl, rfl⟩, hc, hb⟩
        obtain ⟨m, hm⟩ := (ih c (List.mem_of_getElem? hc)).mp hb
        exact ⟨m, c, hc, hm⟩
      · rintro ⟨m, c, hc, hm⟩
        exact ⟨i, b, c, ⟨rfl, rfl⟩, hc, (ih c (List.mem_of_getElem? hc)).mpr ⟨m, hm⟩⟩

theorem map_at?_addressesFrom {ns : List Node}
    (h : ∀ c ∈ ns, c.addresses.map c.at? = c.preorder.map some) :
    ∀ front, n.children = front ++ ns →
      (addressesFrom front.length ns).map n.at? = (ns.flatMap preorder).map some := by
  induction ns with
  | nil => exact fun _ _ => rfl
  | cons c ns ih =>
    obtain ⟨hc, hns⟩ := List.forall_mem_cons.mp h
    intro front hchildren
    have hat : n.at? ∘ (front.length :: ·) = c.at? := by
      funext b
      rw [Function.comp, at?, hchildren, List.getElem?_append_right (Nat.le_refl _), Nat.sub_self]
      rfl
    have hrest := ih hns (front ++ [c]) (by rw [hchildren, List.append_assoc]; rfl)
    rw [List.length_append, List.length_singleton] at hrest
    rw [addressesFrom, List.map_append, List.map_map, hat, hc, hrest, List.flatMap_cons,
      List.map_append]

/-- The nodes at the addresses that the recursion lists are those that it meets. -/
theorem map_at?_addresses (n : Node) : n.addresses.map n.at? = n.preorder.map some := by
  induction n using child_induction with
  | step n ih =>
    rw [addresses_eq, preorder_eq, List.map_cons, List.map_cons]
    exact congrArg (some n :: ·) (map_at?_addressesFrom ih [] rfl)

theorem pairwise_addressesFrom {ns : List Node} (h : ∀ n ∈ ns, n.addresses.Pairwise (· < ·)) :
    ∀ i, (addressesFrom i ns).Pairwise (· < ·) := by
  induction ns with
  | nil => exact fun _ => List.Pairwise.nil
  | cons n ns ih =>
    obtain ⟨hn, hns⟩ := List.forall_mem_cons.mp h
    intro i
    rw [addressesFrom, List.pairwise_append]
    refine ⟨hn.map _ fun _ _ h => List.cons_lt_cons_self.mpr h, ih hns _, ?_⟩
    intro a ha b hb
    obtain ⟨a, -, rfl⟩ := List.mem_map.mp ha
    obtain ⟨j, b, c, rfl, -, -⟩ := mem_addressesFrom.mp hb
    exact List.cons_lt_cons_iff.mpr (.inl (by omega))

/-- The recursion lists the addresses in their order. -/
theorem pairwise_addresses (n : Node) : n.addresses.Pairwise (· < ·) := by
  induction n using child_induction with
  | step n ih =>
    rw [addresses_eq, List.pairwise_cons]
    refine ⟨fun a ha => ?_, pairwise_addressesFrom ih 0⟩
    obtain ⟨j, b, c, rfl, -, -⟩ := mem_addressesFrom.mp ha
    exact List.nil_lt_cons _ _

end Node

namespace TreeCursor

/-- The address of a node below others: its place among its siblings comes last. -/
def addressBelow (l : Level) : List Level → List Nat
  | [] => []
  | p :: ps => addressBelow p ps ++ [p.node.children.length - (l.behind.length + 1)]

def address (c : TreeCursor) : List Nat := addressBelow c.here c.above

mutual
theorem map_address_subtree : ∀ n behind above, (subtree n behind above).map address =
    n.addresses.map (addressBelow ⟨n, behind⟩ above ++ ·)
  | .mk k r s e cs, behind, above => by
    rw [subtree, Node.addresses, List.map_cons, List.map_cons, List.append_nil,
      map_address_subtrees cs 0 _ above (Nat.zero_add _)]
    rfl

theorem map_address_subtrees : ∀ ns i l above, i + ns.length = l.node.children.length →
    (subtrees ns (l :: above)).map address =
      (Node.addressesFrom i ns).map (addressBelow l above ++ ·)
  | [], _, _, _, _ => rfl
  | n :: ns, i, l, above, h => by
    rw [List.length_cons] at h
    -- the siblings behind a node tell how many are in front of it
    have hplace : addressBelow ⟨n, ns⟩ (l :: above) = addressBelow l above ++ [i] := by
      rw [addressBelow, ← h, Nat.add_sub_cancel]
    have hcons : (addressBelow l above ++ ·) ∘ (i :: ·) = (addressBelow l above ++ [i] ++ ·) :=
      funext fun b => (List.append_cons _ i b)
    rw [subtrees, Node.addressesFrom, List.map_append, List.map_append, List.map_map, hcons,
      map_address_subtree n, hplace, map_address_subtrees ns (i + 1) l above (by omega)]
end

/-- A walk over a tree stands at the addresses in their order. -/
theorem map_address_cursors (root : Node) : root.cursors.map address = root.addresses := by
  rw [Node.cursors_eq, map_address_subtree]
  exact List.map_id _

theorem map_node_cursors (root : Node) : root.cursors.map node = root.preorder := by
  rw [← Node.map_node_visits, Node.visits, List.map_map]
  rfl

/-- A cursor of a walk stands on the node at its address. -/
theorem at?_address {root : Node} {c : TreeCursor} (hc : c ∈ root.cursors) :
    root.at? c.address = some c.node := by
  have hmap : root.cursors.map (root.at? ∘ address) = root.cursors.map (some ∘ node) := by
    rw [← List.map_map, ← List.map_map, map_address_cursors, map_node_cursors,
      Node.map_at?_addresses]
  exact List.map_inj_left.mp hmap c hc

end TreeCursor

/-- How a cursor walks through a tree. -/
structure Node.Walked (root : Node) (cursors : List TreeCursor) : Prop where
  /-- From the root its moves come to an end, after one round for each node. -/
  trace : TreeCursor.Trace (.start root) cursors
  rounds : cursors.length = root.count
  nodes : root.descendants = cursors.map TreeCursor.node
  /-- The nodes met are those of the recursion on the tree. -/
  preorder : root.descendants = root.preorder
  /-- The cursor stands once at each address, and before it stands at any below. -/
  at?_iff : ∀ a n, root.at? a = some n ↔ ∃ c ∈ cursors, c.address = a ∧ c.node = n
  increasing : cursors.Pairwise fun c d => c.address < d.address

/-- From the root the moves of a cursor come to an end, after one round for each node. The nodes
met are those of the recursion on the tree, and the cursor stands once at each address: on a node
before it stands on any below it, and on siblings from the first to the last. -/
theorem Node.descendants_complete (root : Node) : root.Walked root.cursors := by
  have hnodes := TreeCursor.map_node_cursors root
  have haddresses := TreeCursor.map_address_cursors root
  constructor
  case trace => exact TreeCursor.trace_walk _
  case rounds => rw [← length_preorder, ← hnodes, List.length_map]
  case nodes => exact (map_node_visits root).trans hnodes.symm
  case preorder => exact map_node_visits root
  case at?_iff =>
    intro a n
    constructor
    · intro hn
      have ha : a ∈ root.addresses := mem_addresses.mpr ⟨n, hn⟩
      rw [← haddresses] at ha
      obtain ⟨c, hc, rfl⟩ := List.mem_map.mp ha
      exact ⟨c, hc, rfl, Option.some.inj ((TreeCursor.at?_address hc).symm.trans hn)⟩
    · rintro ⟨c, hc, rfl, rfl⟩
      exact TreeCursor.at?_address hc
  case increasing =>
    rw [← List.pairwise_map, haddresses]
    exact pairwise_addresses root

/-- Two children that look alike are two places. -/
example :
    let leaf : Node := .mk .identifier .item 1 1 []
    (Node.mk .array .item 0 2 [leaf, .mk .array .item 1 1 [leaf], leaf]).cursors.map
      TreeCursor.address = [[], [0], [1], [1, 0], [2]] := by
  decide +kernel

end TokenLint.Source
