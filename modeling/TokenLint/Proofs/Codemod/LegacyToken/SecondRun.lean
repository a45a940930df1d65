import TokenLint.Proofs.Codemod.LegacyToken.Applied
import TokenLint.Proofs.Edit.Around

/-!
# Legacy tokens in a second run

What was renamed has a new name. What no edit reaches reads as before, and was neither an access to
the object nor a declaration of it.
-/
namespace TokenLint.Codemod.LegacyToken

open Source Text EditPlan

variable {file file' : SourceFile}

/-- What a path without classes gets before it. -/
def remark (path : String) : String := s!"/* TODO(ds-migration): map {path} */ "

theorem replacement_of_unmapped {path : String} (h : table.lookup path = none) :
    (replacement path).toList =
      (remark path).toList ++ (newName.toList ++ (".".toList ++ path.toList)) := by
  have htext : replacement path = remark path ++ newName ++ "." ++ path := by
    rw [replacement, h]
    unfold remark
    rfl
  rw [htext, String.toList_append, String.toList_append, String.toList_append, List.append_assoc,
    List.append_assoc]

/-- Where an access that goes through the renamed object has the new name. -/
def newNameSpan (file : SourceFile) (v : Visit) (path : String) : Span :=
  let start := ((applied file).image v.node.span).start + size (remark path).toList
  ⟨start, start + size newName.toList⟩

/-- The same node in the new text: no edit reaches over it. -/
structure Again (file : SourceFile) (r r' : Node) : Prop where
  kind : r'.kind = r.kind
  left : ∀ e ∈ applied file, ¬r.span.Within e.span
  span : r'.span = (applied file).image r.span

/-- The second file has the text that the plan makes of the first one. Its accesses, to any object,
are those that were not edited and those that go through the renamed object; its names are declared
where names were. -/
structure Rereads (file file' : SourceFile) : Prop where
  text : file'.text = (plan file).apply file.text
  accesses : ∀ v' ∈ file'.root.visits, ∀ r', Whole v' r' → ∃ v ∈ file.root.visits,
    (accessEdit? file v = none ∧ ∃ r, Whole v r ∧ Again file r r') ∨
    ∃ path, accessEdit? file v = some ⟨v.node.span, replacement path⟩ ∧
      ⟨v.node.span, replacement path⟩ ∈ applied file ∧ table.lookup path = none ∧
      r'.span = newNameSpan file v path
  names : ∀ d' ∈ declarations file', ∃ d ∈ declarations file,
    d'.name.kind = d.name.kind ∧ d'.name.span = (applied file).image d.name.span

/-- In the new text every name of the object is the new one, and every whole access reads as it was
rewritten, if it did not go with the export of a declaration. -/
structure Retired (file file' : SourceFile) : Prop where
  names : ∀ d ∈ declarations file, isOldName file d.name →
    file'.slice ((applied file).image d.name.span) = newName
  accesses : ∀ v ∈ file.root.visits, ∀ e, accessEdit? file v = some e →
    file'.slice ((applied file).image v.node.span) = e.text ∨ GoesWithExport file v.node.span

section
variable (htext : file'.text = (plan file).apply file.text)
include htext

theorem slice_image {e : Edit} (he : e ∈ applied file) (hne : e.span.start < e.span.stop) :
    file'.slice ((applied file).image e.span) = e.text := by
  rw [SourceFile.slice, htext, ← apply_applied]
  exact (spread_applied file).slice_image_of_mem he hne

/-- Where the new name stands in an access. -/
theorem slice_newNameSpan {v : Visit} {path : String}
    (he : (⟨v.node.span, replacement path⟩ : Edit) ∈ applied file)
    (hne : v.node.start < v.node.stop) (hnone : table.lookup path = none) :
    file'.slice (newNameSpan file v path) = newName := by
  have hread := slice_image htext he hne
  rw [← String.ofList_toList (s := replacement path), replacement_of_unmapped hnone] at hread
  obtain ⟨front, back, hcut, hstart, -⟩ := exists_cut_of_slice hread (by simp [newName])
  have hparts : file'.text.toList = (front ++ (remark path).toList) ++
      (newName.toList ++ (".".toList ++ path.toList ++ back)) := by
    rw [hcut]
    simp only [List.append_assoc]
  rw [SourceFile.slice, slice_eq hparts, String.ofList_toList]
  · rw [size_append, hstart]
    rfl
  · rw [size_append, hstart]
    rfl

variable (hf : file.WellFormed)
include hf

/-- A leaf that no edit reaches over reads as before. -/
theorem slice_again {r r' : Node} (hr : r ∈ file.root.preorder) (hleaf : r.children = [])
    (h : Again file r r') : file'.slice r'.span = file.slice r.span := by
  have hnode := (hf.aligned r hr).isRange (hf.nests r hr)
  have hapart : ∀ e ∈ applied file, e.span.Apart r.span := fun e he =>
    (apart_or_within_leaf hf hr hleaf (mem_plan_of_mem_accepted he)).resolve_right (h.left e he)
  rw [h.span, SourceFile.slice, htext, ← apply_applied]
  exact (spread_applied file).slice_image_of_apart hnode hapart

/-- The name of a declaration is a new one, or what it was. -/
theorem slice_name {d : Declaration} (hd : d ∈ declarations file) (hk : d.name.kind = .identifier) :
    file'.slice ((applied file).image d.name.span) =
      if isOldName file d.name then newName else file.slice d.name.span := by
  have hin := inFile_of_mem_declarations hd hk
  split
  · rename_i hold
    have happlied := mem_applied_of_name hf hd hold
    have hread := slice_image htext happlied (start_lt_stop_of_isOldName hold)
    exact hread
  · rename_i hother
    have hname := Node.mem_preorder_trans hin.declaration_mem_root hin.name_mem
    have hnode := (hf.aligned d.name hname).isRange (hf.nests d.name hname)
    have hapart : ∀ e ∈ applied file, e.span.Apart d.name.span := fun e he =>
      (apart_name hf hin (mem_plan_of_mem_accepted he)).resolve_right fun h => hother h.1
    rw [SourceFile.slice, htext, ← apply_applied]
    exact (spread_applied file).slice_image_of_apart hnode hapart

theorem retired : Retired file file' where
  names := fun d hd hold => by
    rw [slice_name htext hf hd (kind_of_isOldName hold), if_pos hold]
  accesses := fun v hv e he => by
    obtain ⟨-, -, ⟨names, hchain⟩, hspan, -⟩ := accessEdit?_eq_some he
    have hn := Node.nests_of_mem hf.nests (Node.node_mem_preorder hv)
    have hne := start_lt_stop_of_chain? hn hchain
    refine (mem_applied_of_access hf hv he).imp_left fun happlied => ?_
    rw [← hspan]
    exact slice_image htext happlied (by rw [hspan]; exact hne)

theorem plan_reread_eq_nil (h : Rereads file file') : plan file' = [] := by
  have haccesses : file'.root.visits.filterMap (accessEdit? file') = [] := by
    refine List.filterMap_eq_nil_iff.mpr fun v' hv' => ?_
    refine Option.not_isSome_iff_eq_none.mp fun hsome => ?_
    obtain ⟨r', hwhole', hold'⟩ := isSome_accessEdit?_iff.mp hsome
    rw [isOldName_iff] at hold'
    obtain ⟨v, hv, ⟨hnone, r, hwhole, hagain⟩ | ⟨path, hedit, happlied, hlookup, hspan⟩⟩ :=
      h.accesses v' hv' r' hwhole'
    · have hr := Node.mem_preorder_trans (Node.node_mem_preorder hv) (origin?_mem hwhole.origin)
      have hkind : r.kind = .identifier := hagain.kind.symm.trans hold'.1
      have hleaf := (hf.shaped r hr).leaf (by rw [hkind]; decide)
      have hold : isOldName file r := by
        rw [isOldName_iff, ← slice_again htext hf hr hleaf hagain]
        exact ⟨hkind, hold'.2⟩
      have hsome := isSome_accessEdit?_iff.mpr ⟨r, hwhole, hold⟩
      rw [hnone] at hsome
      cases hsome
    · obtain ⟨-, -, ⟨names, hchain⟩, -⟩ := accessEdit?_eq_some hedit
      have hne := start_lt_stop_of_chain?
        (Node.nests_of_mem hf.nests (Node.node_mem_preorder hv)) hchain
      rw [hspan, slice_newNameSpan htext happlied hne hlookup] at hold'
      exact absurd hold'.2 (by decide)
  have hnames : file'.root.children.flatMap (declarationsIn file') = [] := by
    refine List.eq_nil_iff_forall_not_mem.mpr fun d' hd' => ?_
    obtain ⟨hd', hold'⟩ := mem_flatMap_declarationsIn.mp hd'
    rw [isOldName_iff] at hold'
    obtain ⟨d, hd, hkind, hspan⟩ := h.names d' hd'
    have hdkind : d.name.kind = .identifier := hkind.symm.trans hold'.1
    have hname := slice_name htext hf hd hdkind
    rw [← hspan, hold'.2] at hname
    split at hname
    · exact absurd hname (by decide)
    · rename_i hother
      exact hother (isOldName_iff.mpr ⟨hdkind, hname.symm⟩)
  rw [plan, haccesses, hnames]
  rfl

end

end TokenLint.Codemod.LegacyToken
