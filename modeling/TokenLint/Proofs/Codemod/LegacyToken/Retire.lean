import TokenLint.Proofs.Codemod.LegacyToken.Access

/-!
# Edits at declarations of the legacy object

A declaration is edited at the start of its statement and at its name, and an exported one loses
what stands before the declaration proper. Only this last edit can reach an access: one between
the start of the statement and the declaration, where the decorators of an export stand.
-/
namespace TokenLint.Codemod.LegacyToken

open Source Text EditPlan

variable {file : SourceFile}

/-- A declaration of a plain name, with what stands around the name. -/
structure Declaration.InFile (file : SourceFile) (d : Declaration) : Prop where
  statement : d.statement ∈ file.root.children
  declared : declared? d.statement = some d.declaration
  name : ∃ declarator ∈ d.declaration.children, declarator.child? .name = some d.name
  kind : d.name.kind = .identifier

theorem inFile_of_mem {d : Declaration}
    (h : d ∈ file.root.children.flatMap (declarationsIn file)) : d.InFile file := by
  obtain ⟨statement, hstatement, h⟩ := List.mem_flatMap.mp h
  unfold declarationsIn at h
  split at h
  · cases h
  · rename_i declaration hdeclared
    obtain ⟨declarator, hdeclarator, h⟩ := List.mem_filterMap.mp h
    obtain ⟨name, hname, rfl⟩ := Option.map_eq_some_iff.mp h
    obtain ⟨hname, hold⟩ := Option.filter_eq_some_iff.mp hname
    exact ⟨hstatement, hdeclared, ⟨declarator, hdeclarator, hname⟩, kind_of_isOldName hold⟩

/-- A statement declares something itself, or exports a declaration that is a child of it. -/
theorem declared?_eq_some {statement declaration : Node}
    (h : declared? statement = some declaration) : declaration.kind = .declaration ∧
      (statement.kind ≠ .exportStatement ∧ declaration = statement ∨
        statement.kind = .exportStatement ∧ declaration ∈ statement.children) := by
  unfold declared? at h
  obtain ⟨h, hk⟩ := Option.filter_eq_some_iff.mp h
  refine ⟨by simpa using hk, ?_⟩
  split at h
  · rename_i hexport
    exact Or.inr ⟨by simpa using hexport, (Node.mem_children_of_child? h).1⟩
  · rename_i hplain
    exact Or.inl ⟨by simpa using hplain, (Option.some.inj h).symm⟩

namespace Declaration.InFile

variable {d : Declaration}

theorem statement_mem (hd : d.InFile file) : d.statement ∈ file.root.preorder :=
  Node.mem_preorder_of_mem_children hd.statement

/-- The declaration is in the subtree of its statement. -/
theorem declaration_mem (hd : d.InFile file) : d.declaration ∈ d.statement.preorder := by
  rcases (declared?_eq_some hd.declared).2 with ⟨-, heq⟩ | ⟨-, hmem⟩
  · rw [heq]
    exact Node.mem_preorder_self _
  · exact Node.mem_preorder_of_mem_children hmem

theorem name_mem (hd : d.InFile file) : d.name ∈ d.declaration.preorder := by
  obtain ⟨declarator, hdeclarator, hname⟩ := hd.name
  exact Node.mem_preorder_child (Node.mem_preorder_of_mem_children hdeclarator)
    (Node.mem_children_of_child? hname).1

theorem declaration_mem_root (hd : d.InFile file) : d.declaration ∈ file.root.preorder :=
  Node.mem_preorder_trans hd.statement_mem hd.declaration_mem

theorem declaration_within (hd : d.InFile file) (hf : file.WellFormed) :
    d.declaration.span.Within d.statement.span :=
  Node.within_of_mem_preorder (Node.nests_of_mem hf.nests hd.statement_mem) hd.declaration_mem

theorem name_within (hd : d.InFile file) (hf : file.WellFormed) :
    d.name.span.Within d.declaration.span := by
  have hn := Node.nests_of_mem hf.nests hd.declaration_mem_root
  exact Node.within_of_mem_preorder hn hd.name_mem

theorem statement_kind (hd : d.InFile file) :
    d.statement.kind = .declaration ∨ d.statement.kind = .exportStatement := by
  obtain ⟨hk, ⟨-, heq⟩ | ⟨hexport, -⟩⟩ := declared?_eq_some hd.declared
  · exact Or.inl (by rw [← heq, hk])
  · exact Or.inr hexport

end Declaration.InFile

/-- The comment before a statement. -/
def commentEdit (file : SourceFile) (statement : Node) : Edit :=
  let comment := s!"// TODO(ds-migration): replace {newName} with design-system primitives"
  .insert statement.start s!"{comment}\n{file.indentOf statement}"

/-- The edit that takes the export from a declaration. -/
def exportEdit (d : Declaration) : Edit := .delete ⟨d.statement.start, d.declaration.start⟩

def nameEdit (d : Declaration) : Edit := ⟨d.name.span, newName⟩

theorem mem_retire {d : Declaration} {e : Edit} : e ∈ retire file d ↔
    e = commentEdit file d.statement ∨ d.statement.kind = .exportStatement ∧ e = exportEdit d ∨
      e = nameEdit d := by
  unfold retire commentEdit exportEdit nameEdit
  by_cases hexport : d.statement.kind = .exportStatement <;> simp [hexport]

variable {d d' : Declaration} {e a b : Edit}

/-- The edits of a declaration fit the text and stay within its statement. -/
theorem placed_of_mem_retire (hf : file.WellFormed) (hd : d.InFile file) (h : e ∈ retire file d) :
    IsRange file.text.toList e.span ∧ e.span.Within d.statement.span := by
  have hstatement := hd.statement_mem
  have hdeclaration := hd.declaration_mem_root
  have hname := Node.mem_preorder_trans hdeclaration hd.name_mem
  have hwithin := hd.declaration_within hf
  have hdle := (hf.nests d.declaration hdeclaration).ordered
  have hstart := (hf.aligned d.statement hstatement).start
  rcases mem_retire.mp h with rfl | ⟨-, rfl⟩ | rfl
  · exact ⟨hstart.isRange, (hf.nests d.statement hstatement).start_within⟩
  · exact ⟨⟨hwithin.1, hstart, (hf.aligned d.declaration hdeclaration).start⟩,
      Nat.le_refl _, Nat.le_trans hdle hwithin.2⟩
  · exact ⟨(hf.aligned d.name hname).isRange (hf.nests d.name hname),
      (hd.name_within hf).trans hwithin⟩

/-- Names of one declaration are apart, or the same name. -/
theorem nameEdit_apart (hf : file.WellFormed) (hd : d.InFile file) (hd' : d'.InFile file)
    (heq : d.declaration = d'.declaration) :
    (nameEdit d).span.Apart (nameEdit d').span ∨ nameEdit d = nameEdit d' := by
  obtain ⟨c, hc, hname⟩ := hd.name
  obtain ⟨c', hc', hname'⟩ := hd'.name
  rw [← heq] at hc'
  have hroot := hd.declaration_mem_root
  have hn := hf.nests d.declaration hroot
  rcases hn.eq_or_apart hc hc' with rfl | hapart
  · rw [hname] at hname'
    unfold nameEdit
    rw [Option.some.inj hname']
    exact Or.inr rfl
  · have hcn := hf.nests c (Node.mem_preorder_child hroot hc)
    have hcn' :=
      hf.nests c' (Node.mem_preorder_child hroot hc')
    exact Or.inl (hapart.mono (hcn.child_within (Node.mem_children_of_child? hname).1)
      (hcn'.child_within (Node.mem_children_of_child? hname').1))

/-- The edits of one declaration, or of two in one statement, do not conflict. -/
theorem apart_of_same_statement (hf : file.WellFormed) (hd : d.InFile file)
    (hd' : d'.InFile file) (heq : d.statement = d'.statement) (ha : a ∈ retire file d)
    (hb : b ∈ retire file d') : a.span.Apart b.span ∨ a = b := by
  have hsame : d.declaration = d'.declaration := by
    have h := hd.declared
    rw [heq, hd'.declared] at h
    exact (Option.some.inj h).symm
  have hwithin := hd.declaration_within hf
  have hname := hd.name_within hf
  have hname' := hd'.name_within hf
  rw [← hsame] at hname'
  have hexport : exportEdit d = exportEdit d' := by
    unfold exportEdit
    rw [heq, hsame]
  rcases mem_retire.mp ha with rfl | ⟨-, rfl⟩ | rfl
  · rcases mem_retire.mp hb with rfl | ⟨-, rfl⟩ | rfl
    · exact Or.inr (by rw [heq])
    · rw [← hexport]
      exact Or.inl (Or.inl (Nat.le_refl _))
    · exact Or.inl (Or.inl (Nat.le_trans hwithin.1 hname'.1))
  · rcases mem_retire.mp hb with rfl | ⟨-, rfl⟩ | rfl
    · rw [← heq]
      exact Or.inl (Or.inr (Nat.le_refl _))
    · exact Or.inr hexport
    · exact Or.inl (Or.inl hname'.1)
  · rcases mem_retire.mp hb with rfl | ⟨-, rfl⟩ | rfl
    · rw [← heq]
      exact Or.inl (Or.inr (Nat.le_trans hwithin.1 hname.1))
    · rw [← hexport]
      exact Or.inl (Or.inr hname.1)
    · exact nameEdit_apart hf hd hd' hsame

theorem retire_apart (hf : file.WellFormed) (hd : d.InFile file) (hd' : d'.InFile file)
    (ha : a ∈ retire file d) (hb : b ∈ retire file d') : a.span.Apart b.span ∨ a = b := by
  have hroot := hf.nests file.root (Node.mem_preorder_self _)
  rcases hroot.eq_or_apart hd.statement hd'.statement with heq | hapart
  · exact apart_of_same_statement hf hd hd' heq ha hb
  · exact Or.inl (hapart.mono (placed_of_mem_retire hf hd ha).2
      (placed_of_mem_retire hf hd' hb).2)

/-! ## Accesses beside declarations -/

/-- A member below a declaration is apart from the names that are declared. -/
theorem member_apart_name (hf : file.WellFormed) (hd : d.InFile file) {n : Node}
    (hk : n.kind = .member) (hn : n ∈ d.declaration.preorder) : n.span.Apart d.name.span := by
  obtain ⟨c, hc, hname⟩ := hd.name
  obtain ⟨hnamemem, hrole⟩ := Node.mem_children_of_child? hname
  have hidentifier := hd.kind
  have hroot := hd.declaration_mem_root
  have hcroot := Node.mem_preorder_child hroot hc
  have hcn := Node.nests_of_mem hf.nests hcroot
  have hdk := (declared?_eq_some hd.declared).1
  have hinside := Node.mem_inside_of_kind_ne hn (by rw [hk, hdk]; decide)
  rcases Node.mem_or_apart (Node.nests_of_mem hf.nests hroot) hc hinside with hnc | hapart
  · rcases Node.mem_preorder.mp hnc with rfl | hbelow
    · -- a member has an object and a property, not a name
      have hmem : d.name ∈ n.children.filter (·.kind ≠ .comment) :=
        List.mem_filter.mpr ⟨hnamemem, by rw [hidentifier]; decide⟩
      have hrolemem := List.mem_map_of_mem (f := Node.role) hmem
      rw [(hf.shaped n hcroot).member hk, hrole] at hrolemem
      exact absurd hrolemem (by decide)
    · rcases Node.mem_or_apart hcn hnamemem hbelow with hname' | hapart
      · have hnameroot := Node.mem_preorder_child hcroot hnamemem
        have hleaf := (hf.shaped d.name hnameroot).leaf (by rw [hidentifier]; decide)
        have hdeep := Node.mem_inside_of_kind_ne hname' (by rw [hk, hidentifier]; decide)
        rw [Node.inside_of_leaf hleaf] at hdeep
        cases hdeep
      · exact hapart
  · have hnamewithin :=
      (hf.nests c hcroot).child_within hnamemem
    exact hapart.mono (Span.Within.refl _) hnamewithin

/-- The access stands where the export of a declaration is taken away. -/
def SwallowedBy (v : Visit) (d : Declaration) : Prop :=
  d.statement.kind = .exportStatement ∧ d.statement.start ≤ v.node.start ∧
    v.node.stop ≤ d.declaration.start

/-- An access conflicts with a declaration's edits only when it is swallowed. -/
theorem access_apart (hf : file.WellFormed) {v : Visit} (hv : v ∈ file.root.visits)
    (ha : accessEdit? file v = some a) (hd : d.InFile file) (hb : b ∈ retire file d) :
    a.span.Apart b.span ∨ SwallowedBy v d := by
  obtain ⟨-, hk, -, hspan, -⟩ := accessEdit?_eq_some ha
  rw [hspan]
  have hnode := Node.mem_inside_of_kind_ne (Node.node_mem_preorder hv)
    (by rw [hk, hf.program]; decide)
  rcases Node.mem_or_apart hf.nests hd.statement hnode with hin | hapart
  · have hsn := Node.nests_of_mem hf.nests hd.statement_mem
    have hne : v.node.kind ≠ d.statement.kind := by
      rcases hd.statement_kind with h | h <;> rw [hk, h] <;> decide
    have hinside := Node.mem_inside_of_kind_ne hin hne
    have hwithin := Node.within_of_mem_inside hsn hinside
    have hcases : v.node ∈ d.declaration.preorder ∨ d.statement.kind = .exportStatement ∧
        v.node.span.Apart d.declaration.span := by
      rcases (declared?_eq_some hd.declared).2 with ⟨-, heq⟩ | ⟨hexport, hmem⟩
      · rw [heq]
        exact Or.inl hin
      · exact (Node.mem_or_apart hsn hmem hinside).imp_right fun h => ⟨hexport, h⟩
    have hdroot := hd.declaration_mem_root
    rcases mem_retire.mp hb with rfl | ⟨-, rfl⟩ | rfl
    · exact Or.inl (Or.inr hwithin.1)
    · rcases hcases with hdecl | ⟨hexport, hbefore | hbehind⟩
      · have h := Node.within_of_mem_preorder (Node.nests_of_mem hf.nests hdroot) hdecl
        exact Or.inl (Or.inr h.1)
      · exact Or.inr ⟨hexport, hwithin.1, hbefore⟩
      · have hle := (hf.nests d.declaration hdroot).ordered
        exact Or.inl (Or.inr (Nat.le_trans hle hbehind))
    · rcases hcases with hdecl | ⟨-, hapart⟩
      · exact Or.inl (member_apart_name hf hd hk hdecl)
      · exact Or.inl (hapart.mono (Span.Within.refl _) (hd.name_within hf))
  · exact Or.inl (hapart.mono (Span.Within.refl _) (placed_of_mem_retire hf hd hb).2)

/-- Some access stands between the start of an exporting statement and the declaration in it. -/
def Swallows (file : SourceFile) : Prop :=
  ∃ v ∈ file.root.visits, (accessEdit? file v).isSome ∧
    ∃ d ∈ file.root.children.flatMap (declarationsIn file), SwallowedBy v d

instance (v : Visit) (d : Declaration) : Decidable (SwallowedBy v d) :=
  inferInstanceAs (Decidable (_ ∧ _ ∧ _))

instance (file : SourceFile) : Decidable (Swallows file) :=
  inferInstanceAs (Decidable (∃ v ∈ file.root.visits, _ ∧ ∃ d ∈ _, SwallowedBy v d))

theorem mem_plan {e : Edit} : e ∈ plan file ↔
    (∃ v ∈ file.root.visits, accessEdit? file v = some e) ∨
      ∃ d ∈ file.root.children.flatMap (declarationsIn file), e ∈ retire file d := by
  rw [plan, List.mem_append, List.mem_filterMap, List.mem_flatMap]

theorem fits_plan (hf : file.WellFormed) : ∀ e ∈ plan file, IsRange file.text.toList e.span := by
  intro e he
  rcases mem_plan.mp he with ⟨v, hv, hacc⟩ | ⟨d, hd, he⟩
  · exact (spread_accesses hf).fits e (List.mem_filterMap.mpr ⟨v, hv, hacc⟩)
  · exact (placed_of_mem_retire hf (inFile_of_mem hd) he).1

/-- What is swallowed conflicts: the access is not empty, and it is not deleted elsewhere. -/
theorem not_conflictFree_of_swallows (hf : file.WellFormed) (h : Swallows file) :
    ¬ (plan file).ConflictFree := by
  obtain ⟨v, hv, hacc, d, hd, hexport, hstart, hstop⟩ := h
  obtain ⟨a, ha⟩ := Option.isSome_iff_exists.mp hacc
  obtain ⟨-, -, ⟨names, hchain⟩, hspan, path, htext⟩ := accessEdit?_eq_some ha
  have hb : exportEdit d ∈ retire file d := mem_retire.mpr (Or.inr (Or.inl ⟨hexport, rfl⟩))
  intro hfree
  rcases hfree.forall (mem_plan.mpr (Or.inl ⟨v, hv, ha⟩)) (mem_plan.mpr (Or.inr ⟨d, hd, hb⟩)) with
    hapart | heq
  · have hlt := start_lt_stop_of_chain?
      (Node.nests_of_mem hf.nests (Node.node_mem_preorder hv)) hchain
    rw [hspan] at hapart
    unfold Span.Apart exportEdit Edit.delete Node.span at hapart
    dsimp only at hapart
    omega
  · refine replacement_ne_empty path ?_
    rw [← htext, heq]
    rfl

/-- The plan is free of conflicts exactly when no access is swallowed. -/
theorem conflictFree_iff (hf : file.WellFormed) :
    (plan file).ConflictFree ↔ ¬ Swallows file := by
  refine ⟨fun hfree h => not_conflictFree_of_swallows hf h hfree, fun h => ?_⟩
  have hmixed : ∀ v ∈ file.root.visits, ∀ a, accessEdit? file v = some a →
      ∀ d ∈ file.root.children.flatMap (declarationsIn file), ∀ b ∈ retire file d,
        a.span.Apart b.span := by
    intro v hv a ha d hd b hb
    refine (access_apart hf hv ha (inFile_of_mem hd) hb).resolve_right fun hswallowed => ?_
    exact h ⟨v, hv, by rw [ha]; rfl, d, hd, hswallowed⟩
  refine conflictFree_of_forall fun a ha b hb => ?_
  rcases mem_plan.mp ha with ⟨v, hv, hva⟩ | ⟨d, hd, hda⟩
  · rcases mem_plan.mp hb with ⟨w, hw, hwb⟩ | ⟨d', hd', hdb⟩
    · exact (spread_accesses hf).conflictFree.forall (List.mem_filterMap.mpr ⟨v, hv, hva⟩)
        (List.mem_filterMap.mpr ⟨w, hw, hwb⟩)
    · exact Or.inl (hmixed v hv a hva d' hd' b hdb)
  · rcases mem_plan.mp hb with ⟨w, hw, hwb⟩ | ⟨d', hd', hdb⟩
    · exact Or.inl (hmixed w hw b hwb d hd a hda).symm
    · exact retire_apart hf (inFile_of_mem hd) (inFile_of_mem hd') hda hdb

end TokenLint.Codemod.LegacyToken
