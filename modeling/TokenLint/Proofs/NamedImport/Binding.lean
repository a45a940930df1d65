import TokenLint.NamedImport
import TokenLint.Proofs.Source.Shift

/-!
# What the imports of a file bind

An import binds names in four ways: a default, a namespace, specifiers in braces, and a required
module. A specifier may be marked as one of a type, and so may a whole import.
-/
namespace TokenLint.NamedImport

open Source

/-- How a name comes to be bound. -/
inductive Form where
  | default
  | namespace
  /-- By a specifier in braces, for what the module exports under a name. -/
  | named (exported : Option String)
  | required
  deriving DecidableEq, Repr

def Form.isNamed : Form → Bool
  | named _ => true
  | _ => false

structure Binding where
  module : Option String
  form : Form
  /-- Whether only a type is bound. -/
  ofType : Bool
  name : String
  deriving DecidableEq, Repr

/-- Whether a name is bound to a value by a specifier of a module. -/
def Binding.isValue (module name : String) (b : Binding) : Bool :=
  b.module == some module && b.form.isNamed && !b.ofType && b.name == name

/-- How many specifiers of a module bind a name to a value. -/
def valueCount (bs : List Binding) (module name : String) : Nat := bs.countP (·.isValue module name)

def isSpecifier (n : Node) : Bool := n.kind == .importSpecifier

/-- Whether a specifier is of a type: a word stands in front of its name. -/
def isTypeSpecifier (s : Node) : Bool := (s.child? .name).any (s.start < ·.start)

section
variable (file : SourceFile) (module : Option String) (ofType : Bool)

/-- What a node in braces binds. -/
def specifierBindings (n : Node) : List Binding :=
  if isSpecifier n then
    (boundName? file n).toList.map fun name =>
      ⟨module, .named ((n.child? .name).map file.nodeText), ofType || isTypeSpecifier n, name⟩
  else []

/-- What a part of an import's clause binds. -/
def partBindings (n : Node) : List Binding :=
  match n.kind with
  | .identifier => [⟨module, .default, ofType, file.nodeText n⟩]
  | .namespaceImport =>
    ((n.childOf? .identifier).map file.nodeText).toList.map (⟨module, .namespace, ofType, ·⟩)
  | .namedImports => n.children.flatMap (specifierBindings file module ofType)
  | _ => []

theorem partBindings_of_braces {n : Node} (h : n.kind = .namedImports) :
    partBindings file module ofType n =
      n.children.flatMap (specifierBindings file module ofType) := by
  rw [partBindings, h]

/-- What a child of an import binds: its clause, or a name for a required module. -/
def childBindings (n : Node) : List Binding :=
  if n.kind == .importClause then n.children.flatMap (partBindings file module ofType)
  else
    match module? file n, (n.childOf? .identifier).map file.nodeText with
    | some source, some name => [⟨some source, .required, ofType, name⟩]
    | _, _ => []

theorem childBindings_of_clause {n : Node} (h : n.kind = .importClause) :
    childBindings file module ofType n = n.children.flatMap (partBindings file module ofType) := by
  rw [childBindings, h]
  rfl

end

def isImport (n : Node) : Bool := n.kind == .importStatement

def statementBindings (file : SourceFile) (n : Node) : List Binding :=
  if isImport n then n.children.flatMap (childBindings file (module? file n) (isTypeOnly n)) else []

/-- All that the imports of a file bind, in order. -/
def bindings (file : SourceFile) : List Binding :=
  file.root.children.flatMap (statementBindings file)

/-- What an import is from is a string. -/
def QuotedSources (file : SourceFile) : Prop :=
  ∀ n ∈ file.root.children, isImport n → ∀ m ∈ n.children, m.role = .source → m.kind = .string

/-! ### Bindings of a node that is kept -/

section
variable {file file' : SourceFile} {f : Nat → Nat} {n : Node}

/-- The text of a child in a role, or of a kind, is kept. -/
theorem text_child?_kept (h : n.Kept file file' f) (r : Role) :
    ((n.move f).child? r).map file'.nodeText = (n.child? r).map file.nodeText := by
  rw [Node.child?_move, Option.map_map]
  refine Option.map_congr fun c hc => ?_
  exact h.text c (Node.mem_preorder_of_mem_children (Node.mem_children_of_child? hc).1)

theorem text_childOf?_kept (h : n.Kept file file' f) (k : Kind) :
    ((n.move f).childOf? k).map file'.nodeText = (n.childOf? k).map file.nodeText := by
  rw [Node.childOf?_move, Option.map_map]
  refine Option.map_congr fun c hc => ?_
  exact h.text c (Node.mem_preorder_of_mem_children (Node.mem_children_of_childOf? hc).1)

theorem boundName?_kept (h : n.Kept file file' f) :
    boundName? file' (n.move f) = boundName? file n := by
  have hor : ∀ (g : SourceFile) (a b : Option Node),
      (a.or b).map g.nodeText = (a.map g.nodeText).or (b.map g.nodeText) := by
    rintro g (_ | a) b <;> rfl
  rw [boundName?, hor, text_child?_kept h, text_child?_kept h, boundName?, hor]

theorem isTypeSpecifier_kept (h : n.Kept file file' f) :
    isTypeSpecifier (n.move f) = isTypeSpecifier n := by
  rw [isTypeSpecifier, isTypeSpecifier, Node.child?_move, Option.any_map]
  cases hc : n.child? .name with
  | none => rfl
  | some c =>
    have horder := h.order n (Node.mem_preorder_self n) c (Node.mem_children_of_child? hc).1
    simp only [Option.any_some, Node.start_move]
    exact decide_eq_decide.mpr horder

theorem specifierBindings_kept (h : n.Kept file file' f) (module : Option String) (ofType : Bool) :
    specifierBindings file' module ofType (n.move f) = specifierBindings file module ofType n := by
  rw [specifierBindings, boundName?_kept h, text_child?_kept h, isTypeSpecifier_kept h, isSpecifier,
    Node.kind_move]
  rfl

theorem partBindings_kept (h : n.Kept file file' f) (module : Option String) (ofType : Bool) :
    partBindings file' module ofType (n.move f) = partBindings file module ofType n := by
  unfold partBindings
  rw [Node.kind_move]
  split
  · rw [h.text n (Node.mem_preorder_self n)]
  · rw [text_childOf?_kept h]
  · rw [Node.children_move, List.flatMap_map]
    exact List.flatMap_congr fun c hc => specifierBindings_kept (h.child hc) module ofType
  · rfl

theorem module?_kept (h : n.Kept file file' f) : module? file' (n.move f) = module? file n := by
  rw [module?, module?, Node.child?_move, Option.map_map]
  refine Option.map_congr fun c hc => ?_
  exact h.content c (Node.mem_preorder_of_mem_children (Node.mem_children_of_child? hc).1)

theorem childBindings_kept (h : n.Kept file file' f) (module : Option String) (ofType : Bool) :
    childBindings file' module ofType (n.move f) = childBindings file module ofType n := by
  rw [childBindings, childBindings, Node.kind_move, module?_kept h, text_childOf?_kept h,
    Node.children_move, List.flatMap_map]
  have hparts : n.children.flatMap (fun c => partBindings file' module ofType (c.move f)) =
      n.children.flatMap (partBindings file module ofType) :=
    List.flatMap_congr fun c hc => partBindings_kept (h.child hc) module ofType
  rw [hparts]

theorem isTypeOnly_move (n : Node) : isTypeOnly (n.move f) = isTypeOnly n := by
  rw [isTypeOnly, Node.childOf?_move, Option.isSome_map, isTypeOnly]

theorem statementBindings_kept (h : n.Kept file file' f) :
    statementBindings file' (n.move f) = statementBindings file n := by
  have hchildren : ∀ (module : Option String) (ofType : Bool),
      n.children.flatMap (fun c => childBindings file' module ofType (c.move f)) =
        n.children.flatMap (childBindings file module ofType) := fun module ofType =>
    List.flatMap_congr fun c hc => childBindings_kept (h.child hc) module ofType
  rw [statementBindings, module?_kept h, isTypeOnly_move, Node.children_move, List.flatMap_map,
    hchildren, isImport, Node.kind_move]
  rfl

end
end TokenLint.NamedImport
