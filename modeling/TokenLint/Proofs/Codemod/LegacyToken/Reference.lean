import TokenLint.Proofs.Codemod.LegacyToken.Applied

/-!
# References to the legacy object

A reference is replaced where a whole plain access begins at it. All others stay, and with them the
old name of the object, unless they go with the export of a declaration.
-/
namespace TokenLint.Codemod.LegacyToken

open Source Text EditPlan

variable {file : SourceFile} {r : Node}

/-- The object's name in the tree, but for comments, properties of objects and the names that are
declared. An expression or a list of exports refers to the object so. -/
structure Reference (file : SourceFile) (r : Node) : Prop where
  node : r ∈ file.root.preorder
  leaf : r.children = []
  text : file.slice r.span = oldName
  noComment : r.kind ≠ .comment
  noProperty : r.role ≠ .property
  free : ∀ d ∈ declarations file, r ≠ d.name

/-- The reference reads as before in the new text. -/
def Stays (file : SourceFile) (r : Node) : Prop :=
  (∀ e ∈ applied file, e.span.Apart r.span) ∧
    slice ((plan file).apply file.text) ((applied file).image r.span) = oldName

/-- The new text has a string of classes or the renamed object in place of an access that the
reference is part of. -/
def Replaced (file : SourceFile) (r : Node) : Prop :=
  ∃ v ∈ file.root.visits, r ∈ v.node.preorder ∧
    ∃ path, ⟨v.node.span, replacement path⟩ ∈ applied file ∧
      slice ((plan file).apply file.text) ((applied file).image v.node.span) =
        match table.lookup path with
        | some classes => s!"\"{classes}\""
        | none => s!"/* TODO(ds-migration): map {path} */ {newName}.{path}"

/-- A whole access, with plain properties only, begins at the reference. -/
def Begins (file : SourceFile) (r : Node) : Prop :=
  r.kind = .identifier ∧ ∃ v ∈ file.root.visits, Whole v r

/-- A chain has comments, properties and one other leaf, the identifier that it begins at. -/
theorem origin?_of_chain? {links : Nat} {n : Node} {names : List String}
    (hshape : ∀ m ∈ n.preorder, m.Shaped) (h : chain? file links n = some names)
    (hr : r ∈ n.preorder) (hleaf : r.children = []) (hcomment : r.kind ≠ .comment)
    (hproperty : r.role ≠ .property) : origin? links n = some r ∧ r.kind = .identifier := by
  have heq : ∀ c ∈ n.preorder, c.kind ∈ Node.leafKinds → r ∈ c.preorder → r = c := by
    intro c hc hck hrc
    rw [Node.mem_preorder, Node.inside_of_leaf ((hshape c hc).leaf hck)] at hrc
    exact hrc.resolve_right List.not_mem_nil
  induction links generalizing n names with
  | zero => cases h
  | succ links ih =>
    have hself := Node.mem_preorder_self n
    rw [origin?]
    rcases chain?_succ h with ⟨hold, -⟩ | ⟨hmember, o, p, inner, ho, hp, hplain, hinner, -⟩
    · have hk := kind_of_isOldName hold
      rw [if_neg (by rw [hk]; decide), heq n hself (by rw [hk]; decide) hr]
      exact ⟨rfl, hk⟩
    · rw [if_pos (by simpa using hmember), hp, ho]
      simp only [Option.bind_eq_bind, Option.bind_some]
      rw [if_pos (by simpa using hplain)]
      rcases Node.mem_preorder.mp hr with rfl | hbelow
      · have hroles := (hshape r hself).member hmember
        rw [hleaf] at hroles
        cases hroles
      · obtain ⟨c, hc, hrc⟩ := Node.mem_inside.mp hbelow
        have hcn := Node.mem_preorder_of_mem_children hc
        have hparts := member_parts (hshape n hself) hmember ho (kind_of_chain? hinner) hp
          (by rw [hplain]; decide) c hc
        rcases hparts with hck | rfl | rfl
        · rw [heq c hcn (by rw [hck]; decide) hrc] at hcomment
          exact absurd hck hcomment
        · exact ih (fun m hm => hshape m (Node.mem_preorder_trans hcn hm)) hinner hrc
            fun m hm => heq m (Node.mem_preorder_trans hcn hm)
        · rw [heq c hcn (by rw [hplain]; decide) hrc] at hproperty
          exact absurd (Node.mem_children_of_child? hp).2 hproperty

theorem Reference.start_lt_stop (hr : Reference file r) : r.start < r.stop := by
  refine Nat.lt_of_not_le fun hle => ?_
  have hempty : file.slice r.span = "" := slice_of_le hle
  rw [hr.text] at hempty
  exact absurd hempty (by decide)

/-- An access that begins at a reference is an access to the object. -/
theorem Begins.exists_edit (h : Begins file r) (hr : Reference file r) :
    ∃ v ∈ file.root.visits, Whole v r ∧ ∃ e, accessEdit? file v = some e := by
  obtain ⟨hk, v, hv, hwhole⟩ := h
  have hold := isOldName_iff.mpr ⟨hk, hr.text⟩
  exact ⟨v, hv, hwhole, Option.isSome_iff_exists.mp (isSome_accessEdit?_iff.mpr ⟨r, hwhole, hold⟩)⟩

section
variable (hf : file.WellFormed) (hr : Reference file r)
include hf hr

/-- A node that reaches over a reference has it in its subtree. -/
theorem Reference.mem_of_within {n : Node} (hn : n ∈ file.root.preorder)
    (hwithin : r.span.Within n.span) : r ∈ n.preorder := by
  exact (Node.apart_or_within_of_leaf hf.nests hn hr.node hr.leaf).resolve_left
    (hwithin.not_apart hr.start_lt_stop)

/-- What reaches over a reference replaces the access that begins at it, or takes an export away. -/
theorem begins_or_goesWithExport {e : Edit} (he : e ∈ applied file)
    (hwithin : r.span.Within e.span) :
    Begins file r ∨ GoesWithExport file r.span := by
  have hne := hr.start_lt_stop
  rcases mem_plan.mp (mem_plan_of_mem_accepted he) with ⟨v, hv, hacc⟩ | ⟨d, hd, hde⟩
  · obtain ⟨houter, hmember, ⟨names, hchain⟩, hspan, -⟩ := accessEdit?_eq_some hacc
    have hnode := Node.node_mem_preorder hv
    rw [hspan] at hwithin
    have hshape : ∀ m ∈ v.node.preorder, m.Shaped := fun m hm =>
      hf.shaped m (Node.mem_preorder_trans hnode hm)
    obtain ⟨horigin, hk⟩ := origin?_of_chain? hshape hchain (hr.mem_of_within hf hnode hwithin)
      hr.leaf hr.noComment hr.noProperty
    exact .inl ⟨hk, v, hv, houter, hmember, horigin⟩
  · rcases mem_retire.mp hde with rfl | ⟨-, rfl⟩ | rfl
    · have hempty := Nat.le_trans hwithin.2 hwithin.1
      exact absurd hempty (Nat.not_le_of_lt hne)
    · exact .inr ⟨d, hd, he, hwithin⟩
    · -- the reference would be the name that is declared
      have hin := inFile_of_mem hd
      have hname := Node.mem_preorder_trans hin.declaration_mem_root hin.name_mem
      have hbelow := hr.mem_of_within hf hname hwithin
      have hleaf := (hf.shaped d.name hname).leaf (by rw [hin.kind]; decide)
      rw [Node.mem_preorder, Node.inside_of_leaf hleaf] at hbelow
      rcases hbelow with heq | hbelow
      · exact absurd heq (hr.free d (mem_flatMap_declarationsIn.mp hd).1)
      · cases hbelow

theorem stays_of_apart (hapart : ∀ e ∈ applied file, e.span.Apart r.span) : Stays file r := by
  have hnode := (hf.aligned r hr.node).isRange (hf.nests r hr.node)
  refine ⟨hapart, ?_⟩
  rw [← apply_applied, (spread_applied file).slice_image_of_apart hnode hapart]
  exact hr.text

theorem stays_iff : Stays file r ↔ ¬(Begins file r ∨ GoesWithExport file r.span) := by
  have hne := hr.start_lt_stop
  constructor
  · rintro ⟨hapart, -⟩ (hbegins | ⟨d, -, he, hwithin⟩)
    · obtain ⟨v, hv, hwhole, e, he⟩ := hbegins.exists_edit hr
      have hspan := (accessEdit?_eq_some he).2.2.2.1
      have hn := Node.nests_of_mem hf.nests (Node.node_mem_preorder hv)
      have hwithin := Node.within_of_mem_preorder hn (origin?_mem hwhole.origin)
      rcases mem_applied_of_access hf hv he with happlied | ⟨d, -, happlied, hgoes⟩
      · rw [← hspan] at hwithin
        exact hwithin.not_apart hne (hapart e happlied)
      · exact (hwithin.trans hgoes).not_apart hne (hapart _ happlied)
    · exact hwithin.not_apart hne (hapart _ he)
  · intro hneither
    refine stays_of_apart hf hr fun e he => ?_
    have hplan := mem_plan_of_mem_accepted he
    refine (apart_or_within_leaf hf hr.node hr.leaf hplan).resolve_right fun hwithin => ?_
    rcases begins_or_goesWithExport hf hr he hwithin with hbegins | hgoes
    · exact hneither (.inl hbegins)
    · exact hneither (.inr hgoes)

theorem replaced_iff :
    Replaced file r ↔ Begins file r ∧ ¬GoesWithExport file r.span := by
  have hne := hr.start_lt_stop
  constructor
  · rintro ⟨v, hv, hmem, path, happlied, -⟩
    have hn := Node.nests_of_mem hf.nests (Node.node_mem_preorder hv)
    have hwithin := Node.within_of_mem_preorder hn hmem
    have hgoes : ¬GoesWithExport file r.span := by
      rintro ⟨d, -, hexport, hgoes⟩
      rcases (spread_applied file).conflictFree.forall happlied hexport with hapart | heq
      · exact hwithin.not_apart hne (hapart.mono (Span.Within.refl _) hgoes)
      · exact replacement_ne_empty path (congrArg Edit.text heq)
    exact ⟨(begins_or_goesWithExport hf hr happlied hwithin).resolve_right hgoes, hgoes⟩
  · rintro ⟨hbegins, hgoes⟩
    obtain ⟨v, hv, hwhole, e, he⟩ := hbegins.exists_edit hr
    obtain ⟨-, -, ⟨names, hchain⟩, hspan, path, htext⟩ := accessEdit?_eq_some he
    have hn := Node.nests_of_mem hf.nests (Node.node_mem_preorder hv)
    have hmem := origin?_mem hwhole.origin
    have happlied : e ∈ applied file := (mem_applied_of_access hf hv he).resolve_right
      fun ⟨d, hd, hexport, hwithin⟩ =>
        hgoes ⟨d, hd, hexport, (Node.within_of_mem_preorder hn hmem).trans hwithin⟩
    obtain rfl : e = ⟨v.node.span, replacement path⟩ := by rw [← hspan, ← htext]
    refine ⟨v, hv, hmem, path, happlied, ?_⟩
    have hne := start_lt_stop_of_chain? hn hchain
    rw [← apply_applied, (spread_applied file).slice_image_of_mem happlied hne]
    exact replacement.eq_def path

end

/-- The names of the object that expressions use. -/
def uses (file : SourceFile) : List Node :=
  file.root.preorder.filter fun n => isOldName file n && n.role != .name && n.role != .property

theorem reference_of_mem_uses (hf : file.WellFormed) (h : r ∈ uses file) : Reference file r := by
  obtain ⟨hnode, h⟩ := List.mem_filter.mp h
  rw [Bool.and_eq_true, Bool.and_eq_true, bne_iff_ne, bne_iff_ne] at h
  obtain ⟨⟨hold, hname⟩, hproperty⟩ := h
  obtain ⟨hk, htext⟩ := isOldName_iff.mp hold
  refine ⟨hnode, (hf.shaped r hnode).leaf (by rw [hk]; decide), htext, by rw [hk]; decide,
    hproperty, ?_⟩
  rintro d hd rfl
  obtain ⟨declarator, -, hdeclarator⟩ := (inFile_of_mem_declarations hd hk).name
  exact hname (Node.mem_children_of_child? hdeclarator).2

/-- Of any references, such as those to one declaration, none stays just when at each a whole plain
access begins, or it goes with an export; and all are replaced just when no access goes with one. -/
theorem references_renamed_iff (hf : file.WellFormed) (refs : List Node)
    (hrefs : ∀ r ∈ refs, Reference file r) :
    ((∀ r ∈ refs, ¬Stays file r) ↔ ∀ r ∈ refs, Begins file r ∨ GoesWithExport file r.span) ∧
    ((∀ r ∈ refs, Replaced file r) ↔
      ∀ r ∈ refs, Begins file r ∧ ¬GoesWithExport file r.span) := by
  constructor
  · refine forall₂_congr fun r hr => ?_
    rw [stays_iff hf (hrefs r hr), not_not]
  · exact forall₂_congr fun r hr => replaced_iff hf (hrefs r hr)

/-- A text that passes the object on, and has an access to it behind a private name. -/
def passedOnText : String :=
  "const designTokens = m();\nclass A \x7b #b; c() \x7b return designTokens.a.#b; \x7d \x7d\n" ++
    "f(designTokens, designTokens.d);"

def passedOn : SourceFile := SourceFile.parse passedOnText

/-- The edits of the access that is replaced and of the declaration. -/
def passedOnEdits : EditPlan :=
  [⟨⟨92, 106⟩, "/* TODO(ds-migration): map d */ legacyDesignTokens.d"⟩,
    .insert 0 "// TODO(ds-migration): replace legacyDesignTokens with design-system primitives\n",
    ⟨⟨6, 18⟩, newName⟩]

theorem passedOn_read : passedOn.WellFormed ∧ plan passedOn = passedOnEdits ∧
    (∃ d ∈ declarations passedOn, isOldName passedOn d.name) ∧
    ∃ r ∈ uses passedOn, ∀ e ∈ passedOnEdits,
      e.span.stop ≤ r.span.start ∨ r.span.stop ≤ e.span.start := by
  decide +kernel

theorem passedOn_renamed_iff : passedOn.WellFormed ∧
    (∀ r ∈ uses passedOn, Reference passedOn r) ∧
    ((∀ r ∈ uses passedOn, ¬Stays passedOn r) ↔
      ∀ r ∈ uses passedOn, Begins passedOn r ∨ GoesWithExport passedOn r.span) ∧
    ((∀ r ∈ uses passedOn, Replaced passedOn r) ↔
      ∀ r ∈ uses passedOn, Begins passedOn r ∧ ¬GoesWithExport passedOn r.span) := by
  have hf := passedOn_read.1
  have hrefs := fun r => reference_of_mem_uses (r := r) hf
  exact ⟨hf, hrefs, references_renamed_iff hf (uses passedOn) hrefs⟩

/-- The object is renamed where it is declared, and of three references to it two keep the old
name. -/
theorem passedOn_keeps_old_name :
    (∃ d ∈ declarations passedOn, nameEdit d ∈ applied passedOn) ∧
    (∃ r, Reference passedOn r ∧ Stays passedOn r) ∧
    legacyToken.revise? passedOnText = some
      ("// TODO(ds-migration): replace legacyDesignTokens with design-system primitives\n" ++
        "const legacyDesignTokens = m();\n" ++
        "class A \x7b #b; c() \x7b return designTokens.a.#b; \x7d \x7d\n" ++
        "f(designTokens, /* TODO(ds-migration): map d */ legacyDesignTokens.d);") := by
  obtain ⟨hf, hplan, ⟨d, hd, hold⟩, r, hr, hapart⟩ := passedOn_read
  refine ⟨⟨d, hd, mem_applied_of_name hf hd hold⟩, ⟨r, ?_⟩, ?_⟩
  · have href := reference_of_mem_uses hf hr
    rw [← hplan] at hapart
    exact ⟨href, stays_of_apart hf href fun e he => hapart e (mem_plan_of_mem_accepted he)⟩
  · have hrun : legacyToken.plan (SourceFile.parse passedOnText) = passedOnEdits := hplan
    rw [Codemod.revise?, hrun, EditPlan.apply_eq_insertionSort (by decide)]
    decide +kernel

end TokenLint.Codemod.LegacyToken
