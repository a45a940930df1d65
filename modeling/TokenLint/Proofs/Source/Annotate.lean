import TokenLint.Rule.ClassString
import TokenLint.Rule.Attribute
import TokenLint.Proofs.Source.Walk

/-!
# Trees with comments put in

A comment that is put before a node is a node of its own. It becomes a child of the innermost node
that has begun by then; the value of an attribute needs braces around it and the comment. What
else is in the tree may move. The class strings of an expression are those that were there, less
the ones in parentheses that a comment has come first in.
-/
namespace TokenLint.Source.Node

mutual
def decEq : (m n : Node) → Decidable (m = n)
  | mk k r s e cs, mk k' r' s' e' cs' =>
    if h : k = k' ∧ r = r' ∧ s = s' ∧ e = e' then
      match decEqAll cs cs' with
      | .isTrue hcs => .isTrue (by rw [h.1, h.2.1, h.2.2.1, h.2.2.2, hcs])
      | .isFalse hcs => .isFalse fun heq => hcs (mk.inj heq).2.2.2.2
    else .isFalse fun heq => h ⟨(mk.inj heq).1, (mk.inj heq).2.1, (mk.inj heq).2.2.1,
      (mk.inj heq).2.2.2.1⟩

def decEqAll : (ms ns : List Node) → Decidable (ms = ns)
  | [], [] => .isTrue rfl
  | [], _ :: _ => .isFalse (List.cons_ne_nil _ _).symm
  | _ :: _, [] => .isFalse (List.cons_ne_nil _ _)
  | m :: ms, n :: ns =>
    match decEq m n with
    | .isFalse h => .isFalse fun heq => h (List.cons.inj heq).1
    | .isTrue h =>
      match decEqAll ms ns with
      | .isTrue hs => .isTrue (by rw [h, hs])
      | .isFalse hs => .isFalse fun heq => hs (List.cons.inj heq).2
end

instance : DecidableEq Node := decEq

/-- What holds of a node when it holds of all nodes below it holds of every node. -/
theorem inside_induction {P : Node → Prop} (step : ∀ n, (∀ m ∈ n.inside, P m) → P n) (n : Node) :
    P n := by
  have hall : ∀ m ∈ n.preorder, P m := by
    induction n using child_induction with
    | step n ih =>
      have hbelow : ∀ m ∈ n.inside, P m := fun m hm => by
        obtain ⟨c, hc, hmc⟩ := mem_inside.mp hm
        exact ih c hc m hmc
      intro m hm
      rcases mem_preorder.mp hm with rfl | hinside
      · exact step m hbelow
      · exact hbelow m hinside
  exact hall n (mem_preorder_self n)

/-! ### Comments and places -/

/-- Where the nodes stand in a text that has comments put in. -/
structure Places where
  /-- A node that was there before. -/
  node : Node → Span
  /-- The comment before a node. -/
  comment : Node → Span
  /-- The braces around an attribute's value and the comment before it. -/
  braces : Node → Span

/-- All nodes where they are, and each comment where the node behind it begins. -/
def Places.still : Places := ⟨span, fun n => ⟨n.start, n.start⟩, span⟩

/-- Whether a node begins with one that is marked. -/
def leads (marked : Node → Bool) (n : Node) : Bool :=
  n.preorder.any fun m => m.start == n.start && marked m

/-- The comment before a node. -/
def note (p : Places) (n : Node) : Node :=
  .mk .comment .item (p.comment n).start (p.comment n).stop []

/-- The value of an attribute with a comment before it, in braces. -/
def braced (p : Places) (n n' : Node) : Node :=
  .mk .jsxExpression n.role (p.braces n).start (p.braces n).stop [note p n, n']

section
variable (marked : Node → Bool) (p : Places)

/-- What comes of a child that is itself to be `c'`, in a node of a kind. Where the node begins
with the child, a comment has its place before the node. -/
def noted (kind : Kind) (begun : Bool) (c c' : Node) : List Node :=
  if !c.leads marked then [c']
  else if kind == .jsxAttribute then [braced p c c']
  else if begun then [note p c, c'] else [c']

mutual
/-- The subtree with the comments put in. -/
def annotate : Node → Node
  | mk k r s e cs =>
    let place := p.node (mk k r s e cs)
    mk k r place.start place.stop (annotateAll k s cs)

def annotateAll (kind : Kind) (start : Nat) : List Node → List Node
  | [] => []
  | c :: cs => noted marked p kind (start < c.start) c c.annotate ++ annotateAll kind start cs
end

end

variable {marked : Node → Bool} {p : Places} {n c : Node}

@[simp] theorem kind_annotate (n : Node) : (n.annotate marked p).kind = n.kind := by
  cases n
  rfl

@[simp] theorem role_annotate (n : Node) : (n.annotate marked p).role = n.role := by
  cases n
  rfl

@[simp] theorem span_annotate (n : Node) : (n.annotate marked p).span = p.node n := by
  cases n
  rfl

@[simp] theorem start_annotate (n : Node) : (n.annotate marked p).start = (p.node n).start := by
  cases n
  rfl

@[simp] theorem stop_annotate (n : Node) : (n.annotate marked p).stop = (p.node n).stop := by
  cases n
  rfl

theorem annotateAll_eq (kind : Kind) (start : Nat) (cs : List Node) :
    annotateAll marked p kind start cs =
      cs.flatMap fun c => noted marked p kind (start < c.start) c (c.annotate marked p) := by
  induction cs with
  | nil => rfl
  | cons c cs ih => rw [annotateAll, ih, List.flatMap_cons]

theorem children_annotate (n : Node) : (n.annotate marked p).children = n.children.flatMap fun c =>
    noted marked p n.kind (n.start < c.start) c (c.annotate marked p) := by
  cases n
  exact annotateAll_eq _ _ _

/-- In an attribute every child stays one. -/
theorem noted_attribute (begun : Bool) (c c' : Node) : noted marked p .jsxAttribute begun c c' =
    [if c.leads marked then braced p c c' else c'] := by
  unfold noted
  cases c.leads marked <;> rfl

theorem noted_of_ne {kind : Kind} (hk : kind ≠ .jsxAttribute) (begun : Bool) (c c' : Node) :
    noted marked p kind begun c c' =
      if c.leads marked && begun then [note p c, c'] else [c'] := by
  have hkind : ¬(kind == .jsxAttribute) = true := by simpa using hk
  unfold noted
  rw [if_neg hkind]
  cases c.leads marked <;> cases begun <;> rfl

theorem children_annotate_attribute (hk : n.kind = .jsxAttribute) :
    (n.annotate marked p).children = n.children.map fun c =>
      if c.leads marked then braced p c (c.annotate marked p) else c.annotate marked p := by
  rw [children_annotate, hk, List.map_eq_flatMap]
  exact List.flatMap_congr fun c _ => noted_attribute _ c _

/-- What passes over comments finds in other nodes the children that were there. -/
theorem flatMap_children_annotate {α : Type} (hk : n.kind ≠ .jsxAttribute) (f : Node → List α)
    (hf : ∀ c, f (note p c) = []) : (n.annotate marked p).children.flatMap f =
      n.children.flatMap fun c => f (c.annotate marked p) := by
  rw [children_annotate, List.flatMap_assoc]
  refine List.flatMap_congr fun c _ => ?_
  rw [noted_of_ne hk]
  split
  · rw [List.flatMap_cons, hf, List.nil_append, List.flatMap_singleton]
  · exact List.flatMap_singleton _ _

theorem filter_children_annotate (hk : n.kind ≠ .jsxAttribute) (q : Node → Bool)
    (hq : ∀ c, q (note p c) = false) : (n.annotate marked p).children.filter q =
      (n.children.map (annotate marked p)).filter q := by
  have hfilter : ∀ cs : List Node, cs.filter q = cs.flatMap fun c => [c].filter q := fun cs => by
    rw [← List.filter_flatMap, List.flatMap_singleton']
  rw [hfilter, hfilter, flatMap_children_annotate hk, List.flatMap_map]
  intro c
  rw [List.filter_cons, hq, if_neg Bool.false_ne_true, List.filter_nil]

theorem child?_annotate (hk : n.kind ≠ .jsxAttribute) {r : Role} (hr : r ≠ .item) :
    (n.annotate marked p).child? r = (n.child? r).map (annotate marked p) := by
  have hsame : (fun c => c.role == r) ∘ annotate marked p = fun c => c.role == r :=
    funext fun c => by rw [Function.comp, role_annotate]
  have hnote : ∀ c, ((note p c).role == r) = false := fun c => by simpa [note, role] using hr.symm
  rw [child?, child?, ← List.head?_filter, filter_children_annotate hk _ hnote, List.head?_filter,
    List.find?_map, hsame]

theorem substitutions_annotate (hk : n.kind ≠ .jsxAttribute) :
    (n.annotate marked p).substitutions = n.substitutions.map (annotate marked p) := by
  have hsame : (fun c => c.kind == .substitution) ∘ annotate marked p =
      fun c => c.kind == .substitution := funext fun c => by rw [Function.comp, kind_annotate]
  rw [substitutions, filter_children_annotate hk _ fun _ => rfl, List.filter_map, hsame,
    substitutions]

/-- The first child of a node is the one that was first, unless a comment has come before it. -/
theorem head?_children_annotate (hk : n.kind ≠ .jsxAttribute) :
    (n.annotate marked p).children.head? = n.children.head?.map fun c =>
      if c.leads marked && n.start < c.start then note p c else c.annotate marked p := by
  rw [children_annotate]
  cases n.children with
  | nil => rfl
  | cons c cs =>
    rw [List.flatMap_cons, List.head?_cons, Option.map_some, noted_of_ne hk]
    split <;> rfl

/-! ### Nothing to put in -/

theorem leads_none (n : Node) : n.leads (fun _ => false) = false := by simp [leads]

theorem annotate_none (n : Node) : n.annotate (fun _ => false) .still = n := by
  induction n using child_induction with
  | step n ih =>
    cases n with
    | mk k r s e cs =>
      have hcs : annotateAll (fun _ => false) .still k s cs = cs := by
        rw [annotateAll_eq]
        refine (List.flatMap_congr fun c hc => ?_).trans (List.flatMap_singleton' cs)
        rw [noted, leads_none, ih c hc]
        rfl
      rw [annotate, hcs]
      rfl

end TokenLint.Source.Node
