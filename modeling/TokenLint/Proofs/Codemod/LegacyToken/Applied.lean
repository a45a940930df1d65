import TokenLint.Proofs.Codemod.LegacyToken.Retire
import TokenLint.Proofs.Edit.Accepted

/-!
# The edits at legacy tokens that are applied

Every name that is declared for the object is renamed, and every whole access is replaced, unless
it goes with the export of a declaration. An edit reaches over all of a leaf or over nothing of it.
-/
namespace TokenLint.Codemod.LegacyToken

open Source Text EditPlan

variable {file file' : SourceFile}

theorem isOldName_iff {n : Node} :
    isOldName file n ↔ n.kind = .identifier ∧ file.slice n.span = oldName := by
  rw [isOldName, Bool.and_eq_true, beq_iff_eq, beq_iff_eq]
  rfl

/-! ### Accesses to any object -/

/-- The node that a chain of plain accesses begins at. -/
def origin? : Nat → Node → Option Node
  | 0, _ => none
  | links + 1, n =>
    if n.kind == .member then do
      let property ← n.child? .property
      let object ← n.child? .object
      if property.kind == .propertyName then origin? links object else none
    else some n

/-- A chain begins at the object's name. -/
theorem isSome_chain?_iff (file : SourceFile) (links : Nat) (n : Node) :
    (chain? file links n).isSome ↔ ∃ r, origin? links n = some r ∧ isOldName file r := by
  induction links generalizing n with
  | zero => simp [chain?, origin?]
  | succ links ih =>
    rw [chain?, origin?]
    split
    · cases n.child? .property with
      | none => simp
      | some property =>
        cases n.child? .object with
        | none => simp
        | some object =>
          simp only [Option.bind_eq_bind, Option.bind_some]
          split
          · rw [← ih object]
            cases chain? file links object <;> simp
          · simp
    · split
      · rename_i hold
        simp [hold]
      · rename_i hother
        simp [hother]

theorem origin?_mem {links : Nat} {n r : Node} (h : origin? links n = some r) : r ∈ n.preorder := by
  induction links generalizing n with
  | zero => cases h
  | succ links ih =>
    rw [origin?] at h
    split at h
    · obtain ⟨property, -, h⟩ := Option.bind_eq_some_iff.mp h
      obtain ⟨object, hobject, h⟩ := Option.bind_eq_some_iff.mp h
      split at h
      · exact Node.mem_preorder_trans
          (Node.mem_preorder_of_mem_children (Node.mem_children_of_child? hobject).1) (ih h)
      · cases h
    · rw [← Option.some.inj h]
      exact Node.mem_preorder_self n

/-- An access that is whole, to whatever it begins at. -/
structure Whole (v : Visit) (r : Node) : Prop where
  outer : isInnerLink v = false
  member : v.node.kind = .member
  origin : origin? v.node.count v.node = some r

theorem isSome_accessEdit?_iff {v : Visit} :
    (accessEdit? file v).isSome ↔ ∃ r, Whole v r ∧ isOldName file r := by
  unfold accessEdit? path?
  by_cases hinner : isInnerLink v = true
  · rw [if_pos hinner]
    refine iff_of_false (by simp) ?_
    rintro ⟨r, hwhole, -⟩
    rw [hwhole.outer] at hinner
    cases hinner
  · rw [if_neg hinner]
    by_cases hmember : v.node.kind = .member
    · rw [if_pos (by simpa using hmember), Option.isSome_map, Option.isSome_map, isSome_chain?_iff]
      refine exists_congr fun r => and_congr_left fun _ => ?_
      exact ⟨fun h => ⟨by simpa using hinner, hmember, h⟩, fun h => h.origin⟩
    · rw [if_neg (by simpa using hmember)]
      refine iff_of_false (by simp) ?_
      rintro ⟨r, hwhole, -⟩
      exact hmember hwhole.member

/-! ### Declarations of any name -/

/-- What a statement declares by name. -/
def namesIn (statement : Node) : List Declaration :=
  match declared? statement with
  | none => []
  | some declaration =>
    declaration.children.filterMap fun declarator =>
      (declarator.child? .name).map (⟨statement, declaration, ·⟩)

/-- What the statements of a file declare by name. -/
def declarations (file : SourceFile) : List Declaration := file.root.children.flatMap namesIn

theorem mem_declarationsIn {statement : Node} {d : Declaration} :
    d ∈ declarationsIn file statement ↔ d ∈ namesIn statement ∧ isOldName file d.name := by
  unfold declarationsIn namesIn
  cases declared? statement with
  | none => simp
  | some declaration =>
    simp only [List.mem_filterMap, Option.map_eq_some_iff, Option.filter_eq_some_iff]
    constructor
    · rintro ⟨declarator, hmem, name, ⟨hname, hold⟩, rfl⟩
      exact ⟨⟨declarator, hmem, name, hname, rfl⟩, hold⟩
    · rintro ⟨⟨declarator, hmem, name, hname, rfl⟩, hold⟩
      exact ⟨declarator, hmem, name, ⟨hname, hold⟩, rfl⟩

theorem mem_flatMap_declarationsIn {d : Declaration} :
    d ∈ file.root.children.flatMap (declarationsIn file) ↔
      d ∈ declarations file ∧ isOldName file d.name := by
  simp only [declarations, List.mem_flatMap, mem_declarationsIn]
  exact ⟨fun ⟨s, hs, hd, hold⟩ => ⟨⟨s, hs, hd⟩, hold⟩, fun ⟨⟨s, hs, hd⟩, hold⟩ => ⟨s, hs, hd, hold⟩⟩

theorem inFile_of_mem_declarations {d : Declaration} (h : d ∈ declarations file)
    (hk : d.name.kind = .identifier) : d.InFile file := by
  obtain ⟨statement, hstatement, h⟩ := List.mem_flatMap.mp h
  unfold namesIn at h
  split at h
  · cases h
  · rename_i declaration hdeclared
    obtain ⟨declarator, hdeclarator, h⟩ := List.mem_filterMap.mp h
    obtain ⟨name, hname, rfl⟩ := Option.map_eq_some_iff.mp h
    exact ⟨hstatement, hdeclared, ⟨declarator, hdeclarator, hname⟩, hk⟩

/-! ### What the edits leave -/

/-- The edits that are applied. -/
def applied (file : SourceFile) : EditPlan := (plan file).accepted file.text

theorem spread_applied (file : SourceFile) : (applied file).Spread file.text.toList :=
  spread_accepted _ _

theorem apply_applied (file : SourceFile) :
    (applied file).apply file.text = (plan file).apply file.text :=
  apply_accepted _ _

/-- A range that is taken away with the export of a declaration. -/
def GoesWithExport (file : SourceFile) (span : Span) : Prop :=
  ∃ d ∈ file.root.children.flatMap (declarationsIn file),
    exportEdit d ∈ applied file ∧ span.Within (exportEdit d).span

/-- A comment is no name. -/
theorem commentEdit_text_ne (file : SourceFile) (statement : Node) :
    (commentEdit file statement).text ≠ newName := by
  have htext : (commentEdit file statement).text = "// TODO(ds-migration): replace " ++
      newName ++ " with design-system primitives" ++ "\n" ++ file.indentOf statement := rfl
  intro h
  have hhead := congrArg (·.toList.head?) h
  simp only [htext, String.toList_append, List.head?_append] at hhead
  exact absurd hhead (by simp [newName])

section
variable (hf : file.WellFormed)
include hf

/-- All edits are apart from the name of a declaration, but for the one that renames it if it is
the object's. -/
theorem apart_name {d : Declaration} (hd : d.InFile file) {e : Edit} (he : e ∈ plan file) :
    e.span.Apart d.name.span ∨ isOldName file d.name ∧ e = nameEdit d := by
  have hname : nameEdit d ∈ retire file d := mem_retire.mpr (.inr (.inr rfl))
  rcases mem_plan.mp he with ⟨v, hv, hacc⟩ | ⟨d', hd', he⟩
  · rcases access_apart hf hv hacc hd hname with hapart | ⟨-, -, hstop⟩
    · exact .inl hapart
    · obtain ⟨-, -, -, hspan, -⟩ := accessEdit?_eq_some hacc
      rw [hspan]
      exact .inl (.inl (Nat.le_trans hstop (hd.name_within hf).1))
  · refine (retire_apart hf (inFile_of_mem hd') hd he hname).imp_right fun heq => ⟨?_, heq⟩
    have htext : e.text = newName := by
      rw [heq]
      rfl
    rcases mem_retire.mp he with rfl | ⟨-, rfl⟩ | rfl
    · exact absurd htext (commentEdit_text_ne file d'.statement)
    · exact absurd htext.symm (by decide : newName ≠ "")
    · -- the other declaration has the same name in the same place
      have hspan : d'.name.span = d.name.span := congrArg Edit.span heq
      have hold := isOldName_iff.mp (mem_flatMap_declarationsIn.mp hd').2
      exact isOldName_iff.mpr ⟨hd.kind, by rw [← hspan]; exact hold.2⟩

/-- An edit reaches over a leaf of the tree, or is apart from it. -/
theorem apart_or_within_leaf {r : Node} (hr : r ∈ file.root.preorder) (hleaf : r.children = [])
    {e : Edit} (he : e ∈ plan file) : e.span.Apart r.span ∨ r.span.Within e.span := by
  have hover : ∀ m ∈ file.root.preorder, m.span.Apart r.span ∨ r ∈ m.preorder := fun m hm =>
    Node.apart_or_within_of_leaf hf.nests hm hr hleaf
  have hwithin : ∀ m ∈ file.root.preorder, r ∈ m.preorder → r.span.Within m.span := fun m hm h =>
    Node.within_of_mem_preorder (Node.nests_of_mem hf.nests hm) h
  rcases mem_plan.mp he with ⟨v, hv, hacc⟩ | ⟨d, hd, he⟩
  · obtain ⟨-, -, -, hspan, -⟩ := accessEdit?_eq_some hacc
    have hnode := Node.node_mem_preorder hv
    rw [hspan]
    exact (hover v.node hnode).imp_right (hwithin v.node hnode)
  · have hd := inFile_of_mem hd
    have hstatement := hd.statement_mem
    have hdeclaration := hd.declaration_mem_root
    have hplaced := (placed_of_mem_retire hf hd he).2
    rcases hover d.statement hstatement with hapart | hin
    · exact .inl (hapart.mono hplaced (Span.Within.refl _))
    · have hin := hwithin d.statement hstatement hin
      rcases mem_retire.mp he with rfl | ⟨-, rfl⟩ | rfl
      · exact .inl (.inl hin.1)
      · -- the export is taken away up to the declaration
        have hle := (hf.nests d.declaration hdeclaration).ordered
        rcases hover d.declaration hdeclaration with (hbehind | hbefore) | hdeep
        · exact .inl (.inl (Nat.le_trans hle hbehind))
        · exact .inr ⟨hin.1, hbefore⟩
        · exact .inl (.inl (hwithin d.declaration hdeclaration hdeep).1)
      · have hname := Node.mem_preorder_trans hdeclaration hd.name_mem
        exact (hover d.name hname).imp_right (hwithin d.name hname)

theorem mem_applied_of_name {d : Declaration} (hd : d ∈ declarations file)
    (hold : isOldName file d.name) : nameEdit d ∈ applied file := by
  have hmem := mem_flatMap_declarationsIn.mpr ⟨hd, hold⟩
  have hplan : nameEdit d ∈ plan file :=
    mem_plan.mpr (.inr ⟨d, hmem, mem_retire.mpr (.inr (.inr rfl))⟩)
  exact mem_accepted_of_apart (fits_plan hf _ hplan)
    (fun a ha => (apart_name hf (inFile_of_mem hmem) ha).imp_right And.right) hplan

/-- A whole access to the object is replaced, unless it goes with the export of a declaration. -/
theorem mem_applied_of_access {v : Visit} (hv : v ∈ file.root.visits) {e : Edit}
    (he : accessEdit? file v = some e) : e ∈ applied file ∨ GoesWithExport file v.node.span := by
  by_cases happlied : e ∈ applied file
  · exact .inl happlied
  have hplan := mem_plan.mpr (.inl ⟨v, hv, he⟩)
  obtain ⟨b, hb, hoverlap⟩ := exists_overlap (fits_plan hf _ hplan) hplan happlied
  rcases mem_plan.mp (mem_plan_of_mem_accepted hb) with ⟨w, hw, hwb⟩ | ⟨d, hd, hdb⟩
  · have hpair := (spread_accesses hf).conflictFree.forall (List.mem_filterMap.mpr ⟨w, hw, hwb⟩)
      (List.mem_filterMap.mpr ⟨v, hv, he⟩)
    rcases hpair with hapart | rfl
    · exact absurd hapart hoverlap
    · exact absurd hb happlied
  · have hin := inFile_of_mem hd
    obtain ⟨-, hstart, hstop⟩ :=
      (access_apart hf hv he hin hdb).resolve_left fun h => hoverlap h.symm
    obtain ⟨-, -, -, hspan, -⟩ := accessEdit?_eq_some he
    rw [hspan] at hoverlap
    rcases mem_retire.mp hdb with rfl | ⟨-, rfl⟩ | rfl
    · exact absurd (.inl hstart) hoverlap
    · exact .inr ⟨d, hd, hb, hstart, hstop⟩
    · exact absurd (.inr (Nat.le_trans hstop (hin.name_within hf).1)) hoverlap

end

end TokenLint.Codemod.LegacyToken
