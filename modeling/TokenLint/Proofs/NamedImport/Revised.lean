import TokenLint.Proofs.NamedImport.Binding
import TokenLint.Proofs.NamedImport

/-!
# A file after names were imported

The edit of an import puts specifiers, a list in braces or a whole declaration into the text. The
tree of the new text is the old one with nodes for them in their place: what stands before stays,
what stands behind moves, and what is around reaches further.
-/
namespace TokenLint.NamedImport

open Source Text

/-! ### The tree -/

/-- Puts nodes in the place of the first child that a test, which sees the later children too,
selects. The later children are moved. -/
def splice (select : Node → List Node → Bool) (f : Nat → Nat) (put : Node → List Node) :
    List Node → List Node
  | [] => []
  | c :: cs => if select c cs then put c ++ cs.map (Node.move f) else c :: splice select f put cs

def firstOf (p : Node → Bool) (n : Node) (_ : List Node) : Bool := p n

def lastOf (p : Node → Bool) (n : Node) (ns : List Node) : Bool := p n && !ns.any p

/-- The node with other children, around an edit that moves its end. -/
def stretch (f : Nat → Nat) (n : Node) (children : List Node) : Node :=
  .mk n.kind n.role n.start (f n.stop) children

@[simp] theorem kind_stretch (f : Nat → Nat) (n : Node) (cs : List Node) :
    (stretch f n cs).kind = n.kind := rfl

@[simp] theorem children_stretch (f : Nat → Nat) (n : Node) (cs : List Node) :
    (stretch f n cs).children = cs := rfl

theorem partBindings_stretch {f : Nat → Nat} {n : Node} (h : n.kind = .namedImports)
    (file : SourceFile) (module : Option String) (ofType : Bool) (cs : List Node) :
    partBindings file module ofType (stretch f n cs) =
      cs.flatMap (specifierBindings file module ofType) :=
  partBindings_of_braces file module ofType h

/-- Specifiers of some names, with a comma and a blank between them. -/
def specifiersAt (pos : Nat) : List String → List Node
  | [] => []
  | s :: ss =>
    .mk .importSpecifier .item pos (pos + size s.toList)
      [.mk .identifier .name pos (pos + size s.toList) []] ::
        specifiersAt (pos + size s.toList + 2) ss

/-- Names in braces, with a blank inside of each. -/
def bracesAt (pos : Nat) (names : List String) : Node :=
  .mk .namedImports .item pos (pos + size (listed names).toList + 4) (specifiersAt (pos + 2) names)

/-- The declaration of an import. -/
def declarationAt (pos : Nat) (module : String) (names : List String) (ended : Bool) : Node :=
  let braces := bracesAt (pos + 7) names
  let source : Node :=
    .mk .string .source (braces.stop + 6) (braces.stop + 8 + size module.toList) []
  .mk .importStatement .item pos (source.stop + if ended then 1 else 0)
    [.mk .importClause .item braces.start braces.stop [braces], source]

def isKind (k : Kind) (n : Node) : Bool := n.kind == k

/-- The names that braces list, each as it is bound. -/
def listedIn (file : SourceFile) (braces : Node) : List String :=
  (braces.children.filter isSpecifier).filterMap (boundName? file)

/-- The names that the first braces of a clause list. -/
def listedInClause (file : SourceFile) (clause : Node) : List String :=
  ((clause.childOf? .namedImports).map (listedIn file)).getD []

/-- The names that an import lists. -/
def listedInImport (file : SourceFile) (n : Node) : List String :=
  ((n.childOf? .importClause).map (listedInClause file)).getD []

section
variable (file : SourceFile) (names : List String) (f : Nat → Nat)

def revisedBraces (n : Node) : Node :=
  let missing := names.filter (!(listedIn file n).contains ·)
  if n.children.any isSpecifier then
    stretch f n
      (splice (lastOf isSpecifier) f (fun c => c :: specifiersAt (c.stop + 2) missing) n.children)
  else bracesAt n.start missing

def revisedClause (n : Node) : Node :=
  stretch f n <|
    if (n.childOf? .namedImports).isSome then
      splice (firstOf (isKind .namedImports)) f (fun c => [revisedBraces file names f c]) n.children
    else
      splice (firstOf (isKind .identifier)) f (fun c => [c, bracesAt (c.stop + 2) names]) n.children

def revisedImport (n : Node) : Node :=
  stretch f n
    (splice (firstOf (isKind .importClause)) f (fun c => [revisedClause file names f c]) n.children)

end

section
variable (file : SourceFile) (module : String) (names : List String)

/-- Whether names can be added to a statement. -/
def canHold (n : Node) : Bool :=
  isImport n && match extendImport file module names n with
    | .unsuitable => false
    | _ => true

/-- The import that names are added to. -/
def target? : Option Node := file.root.children.find? (canHold file module names)

/-- The statements of the new text, if there is an edit. -/
def revisedStatements (e : Edit) : List Node :=
  let statements := file.root.children
  if (target? file module names).isSome then
    splice (firstOf (canHold file module names)) e.shift
      (fun n => [revisedImport file names e.shift n]) statements
  else if statements.any isImport then
    splice (lastOf isImport) e.shift
      (fun n => [n, declarationAt (n.stop + 1) module names (isEnded file n)]) statements
  else
    let first := statements.takeWhile isDirective
    let pos := (first.getLast?.map fun n => n.stop + 2).getD 0
    first ++ declarationAt pos module names true ::
      (statements.dropWhile isDirective).map (Node.move e.shift)

/-- The file with the names imported: the edited text, and its tree. -/
def revised : SourceFile where
  text := (ensure file module names).apply file.text
  root :=
    match ensure file module names with
    | [] => file.root
    | e :: _ => stretch e.shift file.root (revisedStatements file module names e)

/-- The names that are added: those that the target does not list. -/
def added : List String :=
  match target? file module names with
  | none => names
  | some n => names.filter (!(listedInImport file n).contains ·)

end

-- The tree is the one that is read from the new text.
example :
    (revised (SourceFile.parse "import d, { a as b } from 'm'; f()") "m"
        ["b", "c"]).root.preorder.map (fun m => (m.kind, m.role, m.span, m.children.length)) =
      (SourceFile.parse "import d, { a as b, c } from 'm'; f()").root.preorder.map
        fun m => (m.kind, m.role, m.span, m.children.length) := by
  decide +kernel

/-! ### Text and trees side by side -/

/-- A text stands in a file at an offset. -/
def At (file : SourceFile) (pos : Nat) (s : String) : Prop :=
  ∃ front back, file.text.toList = front ++ (s.toList ++ back) ∧ size front = pos

section
variable {file : SourceFile} {pos : Nat} {s t : String}

theorem At.slice (h : At file pos s) : file.slice ⟨pos, pos + size s.toList⟩ = s := by
  obtain ⟨front, back, htext, rfl⟩ := h
  rw [SourceFile.slice, slice_eq htext rfl rfl, String.ofList_toList]

theorem At.append (h : At file pos (s ++ t)) : At file pos s ∧ At file (pos + size s.toList) t := by
  obtain ⟨front, back, htext, rfl⟩ := h
  rw [String.toList_append, List.append_assoc] at htext
  refine ⟨⟨front, t.toList ++ back, htext, rfl⟩, front ++ s.toList, back, ?_, size_append _ _⟩
  rw [htext, List.append_assoc]

/-- A name that a specifier in braces binds to a value. -/
def valueBinding (module : Option String) (name : String) : Binding :=
  ⟨module, .named (some name), false, name⟩

/-- Each new specifier binds the name it was made for. -/
theorem bindings_specifiersAt {names : List String} (h : At file pos (listed names))
    (module : Option String) :
    (specifiersAt pos names).flatMap (specifierBindings file module false) =
      names.map (valueBinding module) := by
  induction names generalizing pos with
  | nil => rfl
  | cons s ss ih =>
    have hname : At file pos s ∧ (ss = [] ∨ At file (pos + size s.toList + 2) (listed ss)) := by
      cases ss with
      | nil =>
        refine ⟨?_, .inl rfl⟩
        rwa [listed, String.intercalate_singleton] at h
      | cons t ss =>
        rw [listed, String.intercalate_cons_cons, String.append_assoc] at h
        exact ⟨h.append.1, .inr h.append.2.append.2⟩
    have hone : specifierBindings file module false
        (.mk .importSpecifier .item pos (pos + size s.toList)
          [.mk .identifier .name pos (pos + size s.toList) []]) = [valueBinding module s] := by
      have hslice := hname.1.slice
      simp [specifierBindings, isSpecifier, Node.kind, boundName?, Node.child?, Node.children,
        Node.role, isTypeSpecifier, Node.start, SourceFile.nodeText, Node.span, Node.stop, hslice,
        valueBinding]
    rw [specifiersAt, List.flatMap_cons, List.map_cons, hone]
    rcases hname.2 with rfl | hrest
    · rfl
    · rw [ih hrest]
      rfl

/-- A list in braces binds the names that it was made for. -/
theorem bindings_bracesAt {names : List String}
    (h : At file pos ("\x7b " ++ listed names ++ " \x7d")) (module : Option String) :
    partBindings file module false (bracesAt pos names) = names.map (valueBinding module) := by
  rw [String.append_assoc] at h
  exact bindings_specifiersAt h.append.2.append.1 module

section
variable {names : List String} {module : String} {ended : Bool}

/-- The parts of a declaration's text: its braces, and the name of the module. -/
theorem parts_of_declaration (h : At file pos (declaration module names ended)) :
    At file (pos + 7) ("\x7b " ++ listed names ++ " \x7d") ∧
      At file ((bracesAt (pos + 7) names).stop + 7) module := by
  have hsplit : declaration module names ended =
      "import " ++ (("\x7b " ++ listed names ++ " \x7d") ++ (" from \"" ++ (module ++
        ("\"" ++ if ended then ";" else "")))) := by
    have hopen : "import \x7b " = "import " ++ "\x7b " := rfl
    have hclose : " \x7d from \"" = " \x7d" ++ " from \"" := rfl
    rw [declaration, hopen, hclose]
    simp only [String.append_assoc]
  rw [hsplit] at h
  have hpos : pos + size "import ".toList + size ("\x7b " ++ listed names ++ " \x7d").toList +
      size " from \"".toList = (bracesAt (pos + 7) names).stop + 7 := by
    have himport : size "import ".toList = 7 := rfl
    have hopen : size "\x7b ".toList = 2 := rfl
    have hclose : size " \x7d".toList = 2 := rfl
    have hfrom : size " from \"".toList = 7 := rfl
    rw [String.toList_append, String.toList_append, size_append, size_append, himport, hopen,
      hclose, hfrom, bracesAt, Node.stop]
    omega
  exact ⟨h.append.2.append.1, hpos ▸ h.append.2.append.2.append.2.append.1⟩

/-- A declaration is from the module that it was made for. -/
theorem module?_declarationAt (h : At file pos (declaration module names ended)) :
    module? file (declarationAt pos module names ended) = some module := by
  have hsource := (parts_of_declaration h).2.slice
  have hcontent : Node.content (.mk .string .source ((bracesAt (pos + 7) names).stop + 6)
      ((bracesAt (pos + 7) names).stop + 8 + size module.toList) []) =
        ⟨(bracesAt (pos + 7) names).stop + 7,
          (bracesAt (pos + 7) names).stop + 7 + size module.toList⟩ := by
    generalize (bracesAt (pos + 7) names).stop = stop
    unfold Node.content
    rw [if_neg (by simp only [Node.start, Node.stop]; omega)]
    simp only [Node.start, Node.stop, Span.mk.injEq, true_and]
    omega
  rw [← hcontent] at hsource
  exact congrArg some hsource

/-- A declaration binds the names that it was made for. -/
theorem bindings_declarationAt (h : At file pos (declaration module names ended)) :
    statementBindings file (declarationAt pos module names ended) =
      names.map (valueBinding (some module)) := by
  have hbraces : partBindings file (some module) false (bracesAt (pos + 7) names) = _ :=
    bindings_bracesAt (parts_of_declaration h).1 (some module)
  have hplain : isTypeOnly (declarationAt pos module names ended) = false := rfl
  rw [statementBindings, module?_declarationAt h, hplain]
  have hchildren : (declarationAt pos module names ended).children.flatMap
      (childBindings file (some module) false) =
        partBindings file (some module) false (bracesAt (pos + 7) names) ++ [] ++ ([] ++ []) := rfl
  rw [hchildren, hbraces]
  simp [declarationAt, isImport, Node.kind]

end

end

end TokenLint.NamedImport
