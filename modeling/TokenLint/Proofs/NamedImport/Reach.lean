import Mathlib.Data.List.TakeWhile
import TokenLint.Proofs.NamedImport

/-!
# What the edit of an import reaches

A declaration is inserted at the front or behind a statement, and names are inserted behind a
specifier or behind the default. Only braces without specifiers are replaced. So a node that the
edit reaches is one of those around its place, or stands in such braces.
-/
namespace TokenLint.NamedImport

open Source Text

/-- The clause of an import at the top level. -/
structure ClauseOf (file : SourceFile) (n clause : Node) : Prop where
  statement : n ∈ file.root.children
  isImport : n.kind = .importStatement
  child : clause ∈ n.children
  isClause : clause.kind = .importClause

/-- What the edit of an import may be: the declaration of the names, or the names put into a clause
of values. -/
inductive AtImport (file : SourceFile) (module : String) (names : List String) : Edit → Prop
  | front : AtImport file module names (.insert 0 (declaration module names true ++ "\n\n"))
  | directive {m : Node} (hm : m ∈ file.root.children) (hkind : isDirective m) :
      AtImport file module names (.insert m.stop ("\n\n" ++ declaration module names true))
  | last {m : Node} (hm : m ∈ file.root.children) (hkind : m.kind = .importStatement) :
      AtImport file module names
        (.insert m.stop ("\n" ++ declaration module names (isEnded file m)))
  | default {n clause m : Node} (hc : ClauseOf file n clause) (hm : m ∈ clause.children)
      (hkind : m.kind = .identifier) :
      AtImport file module names (.insert m.stop (", \x7b " ++ listed names ++ " \x7d"))
  | specifier {n clause named m : Node} (hc : ClauseOf file n clause)
      (hnamed : named ∈ clause.children) (hkind : named.kind = .namedImports)
      (hm : m ∈ named.children) (hspecifier : m.kind = .importSpecifier) :
      AtImport file module names (.insert m.stop (", " ++ listed (missing file named names)))
  /-- Braces that hold no specifier are replaced by braces that list the names. -/
  | braces {n clause named : Node} (hc : ClauseOf file n clause)
      (hnamed : named ∈ clause.children) (hkind : named.kind = .namedImports)
      (hempty : ∀ m ∈ named.children, m.kind ≠ .importSpecifier) :
      AtImport file module names ⟨named.span, "\x7b " ++ listed names ++ " \x7d"⟩

variable {file : SourceFile} {module : String} {names : List String} {ed : Edit}

/-- Braces that hold no specifier list none of the names. -/
theorem missing_of_empty {named : Node} (h : ∀ m ∈ named.children, m.kind ≠ .importSpecifier)
    (names : List String) : missing file named names = names := by
  have hnone : named.children.filter (·.kind == .importSpecifier) = [] :=
    List.filter_eq_nil_iff.mpr fun m hm => by simpa using h m hm
  rw [missing, hnone]
  exact List.filter_true names

theorem atImport_of_extendNamed {n clause named : Node} (hc : ClauseOf file n clause)
    (hnamed : named ∈ clause.children) (hkind : named.kind = .namedImports)
    (h : extendNamed file named names = .extended ed) : AtImport file module names ed := by
  rcases extendNamed_cases h with ⟨last, hlast, rfl⟩ | ⟨hnone, rfl⟩
  · obtain ⟨hmem, hspecifier⟩ := List.mem_filter.mp (List.mem_of_getLast? hlast)
    exact .specifier hc hnamed hkind hmem (by simpa using hspecifier)
  · have hempty : ∀ m ∈ named.children, m.kind ≠ .importSpecifier := fun m hm => by
      simpa using List.filter_eq_nil_iff.mp (List.getLast?_eq_none_iff.mp hnone) m hm
    rw [missing_of_empty hempty]
    exact .braces hc hnamed hkind hempty

theorem atImport_of_extendImport {n : Node} (hn : n ∈ file.root.children)
    (hk : n.kind = .importStatement) (h : extendImport file module names n = .extended ed) :
    AtImport file module names ed := by
  obtain ⟨-, -, clause, hclause, h⟩ := clause_of_extendImport h
  obtain ⟨hmem, hkind⟩ := Node.mem_children_of_childOf? hclause
  have hc : ClauseOf file n clause := ⟨hn, hk, hmem, hkind⟩
  rcases extendClause_cases h with ⟨named, hnamed, h⟩ | ⟨default, -, hdefault, rfl⟩
  · obtain ⟨hmem, hkind⟩ := Node.mem_children_of_childOf? hnamed
    exact atImport_of_extendNamed hc hmem hkind h
  · obtain ⟨hmem, hkind⟩ := Node.mem_children_of_childOf? hdefault
    exact .default hc hmem hkind

theorem atImport_declare (file : SourceFile) (module : String) (names : List String) :
    AtImport file module names (declare file module names file.root.children) := by
  rcases declare_cases file module names file.root.children with
    ⟨last, hlast, hedit⟩ | ⟨-, ⟨last, hlast, hedit⟩ | ⟨-, hedit⟩⟩
  · obtain ⟨hmem, hkind⟩ := List.mem_filter.mp (List.mem_of_getLast? hlast)
    rw [hedit]
    exact .last hmem (by simpa using hkind)
  · have hmem := List.mem_of_getLast? hlast
    rw [hedit]
    exact .directive ((List.takeWhile_prefix _).subset hmem) (List.mem_takeWhile_imp hmem)
  · rw [hedit]
    exact .front

theorem atImport_of_mem_ensure (h : ed ∈ ensure file module names) :
    AtImport file module names ed := by
  unfold ensure at h
  dsimp only at h
  split at h
  · cases h
  · rename_i e he
    obtain rfl := List.mem_singleton.mp h
    obtain ⟨n, hn, hext⟩ := mem_of_extendFirst he
    obtain ⟨hchild, hk⟩ := List.mem_filter.mp hn
    exact atImport_of_extendImport hchild (by simpa using hk) hext
  · obtain rfl := List.mem_singleton.mp h
    exact atImport_declare file module names

/-! ### Nodes around the place -/

/-- Nodes that may be around the place of the edit. -/
def aroundKinds : List Kind := [.program, .importStatement, .importClause, .namedImports]

/-- What the edit changes the text of: a node with its place inside, or what stands in braces that
are written anew. -/
inductive Reached (ed : Edit) (n : Node) : Prop
  | around (hkind : n.kind ∈ aroundKinds) (hstart : n.start < ed.span.stop)
      (hstop : ed.span.start < n.stop)
  | braces {named : Node} (hkind : named.kind = .namedImports)
      (hempty : ∀ m ∈ named.children, m.kind ≠ .importSpecifier) (hspan : ed.span = named.span)
      (hn : n ∈ named.preorder)

theorem reached_of_kind {n : Node} (hkind : n.kind ∈ aroundKinds) :
    Reached ed n ∨ ed.span.Apart n.span := by
  rcases Nat.lt_or_ge n.start ed.span.stop with hstart | hbefore
  · rcases Nat.lt_or_ge ed.span.start n.stop with hstop | hbehind
    · exact .inl (.around hkind hstart hstop)
    · exact .inr (.inr hbehind)
  · exact .inr (.inl hbefore)

/-- Below a node, each node is reached by the edit or apart from it. -/
def Settles (ed : Edit) (x : Node) : Prop :=
  ∀ n ∈ x.preorder, Reached ed n ∨ ed.span.Apart n.span

/-- Where the place is in a child, the child settles what is around it. -/
theorem settles_of_child {x c : Node} (hn : ∀ m ∈ x.preorder, m.Nests)
    (hkind : x.kind ∈ aroundKinds) (hc : c ∈ x.children) (hwithin : ed.span.Within c.span)
    (h : Settles ed c) : Settles ed x := by
  intro n hmem
  rcases Node.mem_preorder.mp hmem with rfl | hinside
  · exact reached_of_kind hkind
  · rcases Node.mem_or_apart hn hc hinside with hbelow | hapart
    · exact h n hbelow
    · exact .inr (hapart.symm.mono hwithin (Span.Within.refl _))

/-- What is inserted behind a child of a node reaches no other node below. -/
theorem settles_behind {x c : Node} (hn : ∀ m ∈ x.preorder, m.Nests)
    (hkind : x.kind ∈ aroundKinds) (hc : c ∈ x.children) (hspan : ed.span = ⟨c.stop, c.stop⟩) :
    Settles ed x := by
  intro n hmem
  have hroot := hn x (Node.mem_preorder_self x)
  have hcn := hn c (Node.mem_preorder_of_mem_children hc)
  rcases Node.mem_preorder.mp hmem with rfl | hinside
  · exact reached_of_kind hkind
  · obtain ⟨d, hd, hbelow⟩ := Node.mem_inside.mp hinside
    have hdn := Node.nests_of_mem hn (Node.mem_preorder_of_mem_children hd)
    rw [hspan]
    exact .inr ((hroot.stop_apart hc hd hcn.ordered).mono (Span.Within.refl _)
      (Node.within_of_mem_preorder hdn hbelow))

theorem ClauseOf.nests {n clause : Node} (hc : ClauseOf file n clause) (hf : file.WellFormed) :
    ∀ m ∈ clause.preorder, m.Nests :=
  Node.nests_of_mem hf.nests
    (Node.mem_preorder_child (Node.mem_preorder_of_mem_children hc.statement) hc.child)

theorem ClauseOf.around {n clause : Node} (hc : ClauseOf file n clause) :
    clause.kind ∈ aroundKinds := by
  rw [hc.isClause]
  decide

theorem program_around (hf : file.WellFormed) : file.root.kind ∈ aroundKinds := by
  rw [hf.program]
  decide

theorem namedImports_around {named : Node} (h : named.kind = .namedImports) :
    named.kind ∈ aroundKinds := by
  rw [h]
  decide

/-- From the clause up to the root, what is around the place or beside it is settled. -/
theorem ClauseOf.settles_root {n clause : Node} (hc : ClauseOf file n clause)
    (hf : file.WellFormed) (hwithin : ed.span.Within clause.span) (h : Settles ed clause) :
    Settles ed file.root := by
  have hn := Node.mem_preorder_of_mem_children hc.statement
  have hkind : n.kind ∈ aroundKinds := by
    rw [hc.isImport]
    decide
  have hstatement := settles_of_child (Node.nests_of_mem hf.nests hn) hkind hc.child hwithin h
  exact settles_of_child hf.nests (program_around hf) hc.statement
    (hwithin.trans ((hf.nests n hn).child_within hc.child)) hstatement

/-- Every node of the tree is reached by the edit or apart from it. -/
theorem AtImport.reached_or_apart (hf : file.WellFormed) (h : AtImport file module names ed)
    {n : Node} (hn : n ∈ file.root.preorder) : Reached ed n ∨ ed.span.Apart n.span := by
  have hroot : Settles ed file.root := by
    cases h with
    | front => exact fun n _ => .inr (.inl (Nat.zero_le _))
    | directive hm hkind => exact settles_behind hf.nests (program_around hf) hm rfl
    | last hm hkind => exact settles_behind hf.nests (program_around hf) hm rfl
    | @default m c d hc hm hkind =>
      have hcn := hc.nests hf
      have hdn := hcn d (Node.mem_preorder_of_mem_children hm)
      exact hc.settles_root hf
        (hdn.stop_within.trans ((hcn c (Node.mem_preorder_self c)).child_within hm))
        (settles_behind hcn hc.around hm rfl)
    | @specifier m c named d hc hnamed hkind hm hspecifier =>
      have hcn := hc.nests hf
      have hnn := Node.nests_of_mem hcn (Node.mem_preorder_of_mem_children hnamed)
      have hdn := hnn d (Node.mem_preorder_of_mem_children hm)
      have hwithin :=
        hdn.stop_within.trans ((hnn named (Node.mem_preorder_self named)).child_within hm)
      have hbraces : Settles (.insert d.stop (", " ++ listed (missing file named names))) named :=
        settles_behind hnn (namedImports_around hkind) hm rfl
      exact hc.settles_root hf
        (hwithin.trans ((hcn c (Node.mem_preorder_self c)).child_within hnamed))
        (settles_of_child hcn hc.around hnamed hwithin hbraces)
    | @braces m c named hc hnamed hkind hempty =>
      have hcn := hc.nests hf
      have hwritten : Settles ⟨named.span, "\x7b " ++ listed names ++ " \x7d"⟩ named :=
        fun n hn => .inl (.braces hkind hempty rfl hn)
      exact hc.settles_root hf ((hcn c (Node.mem_preorder_self c)).child_within hnamed)
        (settles_of_child hcn hc.around hnamed (Span.Within.refl _) hwritten)
  exact hroot n hn

end TokenLint.NamedImport
