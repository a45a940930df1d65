import TokenLint.Proofs.Codemod.Layout.Edits
import TokenLint.Proofs.Edit.Written
import TokenLint.Proofs.NamedImport.Reach

/-!
# What is inserted at the ends of wrapped elements

The tags of a wrapper and the declaration of an import are all insertions, and several of them may
fall on one offset. They are told apart by their texts, for only tags end in a bracket. Where an
element begins there may be closing tags of others first, then its opening tag, and last the
declaration; where it ends its closing tag is first.
-/
namespace TokenLint

open Source Text EditPlan

/-- Elements have marks of their own at both ends: none is empty, and those below one begin and
end strictly inside of it. -/
def SourceFile.Fenced (file : SourceFile) : Prop :=
  ∀ n ∈ file.root.preorder, n.kind = .jsxElement → n.start < n.stop ∧
    ∀ m ∈ n.inside, m.kind = .jsxElement → n.start < m.start ∧ m.stop < n.stop

instance (file : SourceFile) : Decidable file.Fenced :=
  inferInstanceAs (Decidable (∀ n ∈ file.root.preorder, n.kind = .jsxElement → n.start < n.stop ∧
    ∀ m ∈ n.inside, m.kind = .jsxElement → n.start < m.start ∧ m.stop < n.stop))

namespace NamedImport

variable {file : SourceFile} {module : String} {names : List String} {ed : Edit}

/-- A text that is not empty and holds nothing of a tag's end. -/
structure Plain (s : String) : Prop where
  ne_nil : s.toList ≠ []
  not_mem : '>' ∉ s.toList

theorem Plain.append {s t : String} (hs : Plain s) (ht : '>' ∉ t.toList) : Plain (s ++ t) where
  ne_nil := by
    rw [String.toList_append]
    exact List.append_ne_nil_of_left_ne_nil hs.ne_nil _
  not_mem := by
    rw [String.toList_append, List.mem_append, not_or]
    exact ⟨hs.not_mem, ht⟩

theorem not_mem_listed (h : ∀ n ∈ names, '>' ∉ n.toList) : '>' ∉ (listed names).toList := by
  induction names with
  | nil => exact List.not_mem_nil
  | cons s ss ih =>
    obtain ⟨hs, hss⟩ := List.forall_mem_cons.mp h
    cases ss with
    | nil =>
      rw [listed, String.intercalate_singleton]
      exact hs
    | cons t ss =>
      rw [listed, String.intercalate_cons_cons, String.toList_append, String.toList_append]
      simp only [List.mem_append, not_or]
      exact ⟨⟨hs, by decide⟩, ih hss⟩

theorem plain_declaration (hmodule : '>' ∉ module.toList) (hnames : ∀ n ∈ names, '>' ∉ n.toList)
    (ended : Bool) : Plain (declaration module names ended) := by
  have hopen : Plain "import \x7b " := ⟨by decide, by decide⟩
  exact ((((hopen.append (not_mem_listed hnames)).append (by decide)).append hmodule).append
    (by decide)).append (by cases ended <;> decide)

/-- What the edit of an import puts in has no end of a tag in it. -/
theorem AtImport.plain (h : AtImport file module names ed) (hmodule : '>' ∉ module.toList)
    (hnames : ∀ n ∈ names, '>' ∉ n.toList) : Plain ed.text := by
  have hdeclared := plain_declaration hmodule hnames
  have hlisted := not_mem_listed hnames
  cases h with
  | front => exact (hdeclared true).append (by decide)
  | directive hm hkind =>
    exact Plain.append (s := "\n\n") ⟨by decide, by decide⟩ (hdeclared true).not_mem
  | last hm hkind => exact Plain.append (s := "\n") ⟨by decide, by decide⟩ (hdeclared _).not_mem
  | default hc hm hkind =>
    exact (Plain.append (s := ", \x7b ") ⟨by decide, by decide⟩ hlisted).append (by decide)
  | specifier hc hnamed hkind hm hspecifier =>
    exact Plain.append (s := ", ") ⟨by decide, by decide⟩
      (not_mem_listed fun n hn => hnames n (List.mem_filter.mp hn).1)
  | braces hc hnamed hkind hempty =>
    exact (Plain.append (s := "\x7b ") ⟨by decide, by decide⟩ hlisted).append (by decide)

end NamedImport

namespace Codemod.Layout

/-- An element that is wrapped, with its wrapper and its classes. -/
abbrev Found := Element × Wrapper × ClassList

def found (file : SourceFile) : List Found :=
  (Element.all file).filterMap fun e => (match? file e).map (e, ·)

/-- The edit that puts the opening tag of the wrapper before the element. -/
def openEdit (file : SourceFile) (p : Found) : Edit :=
  .insert p.1.node.start s!"{p.2.1.openTag}\n{file.indentOf p.1.node}{file.indentUnit}"

/-- The edit that puts the closing tag of the wrapper behind the element. -/
def closeEdit (file : SourceFile) (p : Found) : Edit :=
  .insert p.1.node.stop s!"\n{file.indentOf p.1.node}{p.2.1.closeTag}"

/-- The edit of an import that the wrappers call for. -/
def imports (file : SourceFile) : EditPlan :=
  let components := Text.distinct ((found file).map fun p => p.2.1.component)
  if components.isEmpty then [] else NamedImport.ensure file module components

theorem plan_eq (file : SourceFile) : plan file =
    ((found file).flatMap fun p => wrap file p.1 p.2.1 p.2.2) ++ imports file := by
  rw [plan, imports]
  dsimp only
  split
  case isTrue h => rw [found, if_pos h, List.append_nil]
  case isFalse h => rw [found, if_neg h]

theorem wrap_eq (file : SourceFile) (p : Found) : wrap file p.1 p.2.1 p.2.2 =
    [p.2.2.retain fun name => !p.2.1.consumed.contains name, openEdit file p,
      closeEdit file p] := rfl

/-! ### Tags -/

theorem openTag_toList (w : Wrapper) : ∃ cs, w.openTag.toList = '<' :: cs ∧ '>' ∈ cs := by
  cases w with
  | container => exact ⟨"Container>".toList, rfl, by decide⟩
  | «section» classes size =>
    have htag : (Wrapper.section classes size).openTag = "<Section size=\"" ++ size ++ "\">" := rfl
    refine ⟨"Section size=\"".toList ++ size.toList ++ "\">".toList, ?_, by simp⟩
    rw [htag, String.toList_append, String.toList_append]
    rfl

theorem mem_closeTag (w : Wrapper) : '>' ∈ w.closeTag.toList := by
  have htag : w.closeTag = "</" ++ w.component ++ ">" := rfl
  rw [htag, String.toList_append]
  exact List.mem_append_right _ (by decide)

section
variable (file : SourceFile) (p q : Found)

theorem text_openEdit : ∃ cs, (openEdit file p).text.toList = '<' :: cs ∧ '>' ∈ cs := by
  obtain ⟨cs, hcs, hmem⟩ := openTag_toList p.2.1
  have htext : (openEdit file p).text =
      p.2.1.openTag ++ "\n" ++ file.indentOf p.1.node ++ file.indentUnit := rfl
  refine ⟨cs ++ "\n".toList ++ (file.indentOf p.1.node).toList ++ file.indentUnit.toList, ?_, ?_⟩
  · rw [htext]
    simp only [String.toList_append, hcs, List.cons_append]
  · simp [hmem]

theorem text_closeEdit : ∃ cs, (closeEdit file p).text.toList = '\n' :: cs ∧ '>' ∈ cs := by
  have htext : (closeEdit file p).text =
      "\n" ++ file.indentOf p.1.node ++ p.2.1.closeTag := rfl
  refine ⟨(file.indentOf p.1.node).toList ++ p.2.1.closeTag.toList, ?_, ?_⟩
  · rw [htext, String.toList_append, String.toList_append]
    rfl
  · exact List.mem_append_right _ (mem_closeTag p.2.1)

theorem openEdit_ne_closeEdit : openEdit file p ≠ closeEdit file q := by
  intro h
  obtain ⟨cs, hcs, -⟩ := text_openEdit file p
  obtain ⟨ds, hds, -⟩ := text_closeEdit file q
  rw [h, hds] at hcs
  exact absurd (List.cons.inj hcs).1 (by decide)

end

/-! ### The order of elements and of their edits -/

variable {file : SourceFile} {p q : Found}

theorem mem_found (hf : file.WellFormed) (hp : p ∈ found file) :
    p.1 ∈ Element.all file ∧ p.1.InFile file ∧ match? file p.1 = some p.2 := by
  obtain ⟨e, he, h⟩ := List.mem_filterMap.mp hp
  obtain ⟨a, ha, rfl⟩ := Option.map_eq_some_iff.mp h
  exact ⟨he, Element.inFile_of_mem_all hf he, ha⟩

/-- Of two elements the first ends before the second, or reaches further at both ends. -/
def Ahead (p q : Found) : Prop :=
  p.1.node.stop ≤ q.1.node.start ∨
    p.1.node.start < q.1.node.start ∧ q.1.node.stop < p.1.node.stop

theorem found_pairwise (hf : file.WellFormed) (hfence : file.Fenced) :
    (found file).Pairwise Ahead := by
  refine List.pairwise_filterMap.mpr ((Element.pairwise_all hf).imp_of_mem ?_)
  intro a b ha hb hab p hp q hq
  obtain ⟨-, -, rfl⟩ := Option.map_eq_some_iff.mp hp
  obtain ⟨-, -, rfl⟩ := Option.map_eq_some_iff.mp hq
  have hina := Element.inFile_of_mem_all hf ha
  have hinb := Element.inFile_of_mem_all hf hb
  exact hab.imp_right fun hinside => (hfence a.node hina.node hina.kind).2 b.node hinside hinb.kind

theorem start_lt_stop (hf : file.WellFormed) (hfence : file.Fenced) (hp : p ∈ found file) :
    p.1.node.start < p.1.node.stop :=
  have hin := (mem_found hf hp).2.1
  (hfence p.1.node hin.node hin.kind).1

/-- The classes of an element that is wrapped are no empty text, so their edit is no insertion. -/
theorem retain_not_empty (hf : file.WellFormed) (hp : p ∈ found file) :
    (p.2.2.retain fun name => !p.2.1.consumed.contains name).span.start <
      (p.2.2.retain fun name => !p.2.1.consumed.contains name).span.stop := by
  obtain ⟨-, hin, hmatch⟩ := mem_found hf hp
  have hclasses := classList?_of_match? hmatch
  have hof := ClassList.of_classList? hf hin hclasses
  obtain ⟨-, -, -, -, -, -, -, hwords⟩ := Element.exists_holder hclasses
  have hcontent : p.2.2.value.content.start < p.2.2.value.content.stop := by
    refine Nat.lt_of_not_le fun hle => ?_
    have hnone : p.2.2.classes = [] := by
      rw [hwords, SourceFile.slice, slice_of_le hle]
      rfl
    have hcalls := (matched hmatch).2
    have hnothing : Wrapper.ofClasses? ([] : List String).contains = none := by decide
    rw [hnone, hnothing] at hcalls
    cases hcalls
  have hroot := Node.mem_preorder_child (hin.mem_child hin.opening) hof.holder
  have hvroot := Node.mem_preorder_child hroot hof.value
  have hwithin := (Node.content_within (hf.nests p.2.2.value hvroot)).trans
    ((hf.nests p.2.2.holder hroot).child_within hof.value)
  have hslot := hof.before_le
  unfold ClassList.retain
  split
  · change p.2.2.before < p.2.2.holder.stop
    exact Nat.lt_of_le_of_lt (Nat.le_trans hslot hwithin.1) (Nat.lt_of_lt_of_le hcontent hwithin.2)
  · exact hcontent

/-- What is inserted for an element at an offset is one of the tags of its wrapper. -/
theorem insertions_wrap (hf : file.WellFormed) (hp : p ∈ found file) (offset : Nat) :
    insertions (wrap file p.1 p.2.1 p.2.2) offset =
      (if p.1.node.start = offset then [openEdit file p] else []) ++
        if p.1.node.stop = offset then [closeEdit file p] else [] := by
  have hretain := retain_not_empty hf hp
  have hskip : ¬(decide ((p.2.2.retain fun name => !p.2.1.consumed.contains name).span =
      ⟨offset, offset⟩) = true) := by
    intro hspan
    rw [of_decide_eq_true hspan] at hretain
    exact Nat.lt_irrefl _ hretain
  have hpoint : ∀ a : Nat, ((⟨a, a⟩ : Span) = ⟨offset, offset⟩) = (a = offset) := fun a => by simp
  rw [wrap_eq, insertions, List.filter_cons, if_neg hskip, List.filter_cons, List.filter_cons,
    List.filter_nil]
  simp only [openEdit, closeEdit, Edit.insert, hpoint, decide_eq_true_eq]
  split <;> split <;> rfl

theorem insertions_append (a b : EditPlan) (offset : Nat) :
    insertions (a ++ b) offset = insertions a offset ++ insertions b offset :=
  List.filter_append _ _

/-- Where none of some elements has an end, nothing is inserted for them. -/
theorem insertions_wraps_eq_nil (hf : file.WellFormed) (ps : List Found) (offset : Nat)
    (hps : ∀ q ∈ ps, q ∈ found file ∧ q.1.node.start ≠ offset ∧ q.1.node.stop ≠ offset) :
    insertions (ps.flatMap fun p => wrap file p.1 p.2.1 p.2.2) offset = [] := by
  rw [insertions, List.filter_flatMap]
  refine List.flatMap_eq_nil_iff.mpr fun q hq => ?_
  obtain ⟨hmem, hstart, hstop⟩ := hps q hq
  have hnone := insertions_wrap hf hmem offset
  rw [if_neg hstart, if_neg hstop] at hnone
  exact hnone

/-- The elements that come before a wrapped one, and those that come behind it. -/
theorem exists_around (hf : file.WellFormed) (hfence : file.Fenced) (hp : p ∈ found file) :
    ∃ front back, found file = front ++ p :: back ∧
      (∀ q ∈ front, q ∈ found file ∧ Ahead q p) ∧ ∀ q ∈ back, q ∈ found file ∧ Ahead p q := by
  obtain ⟨front, back, hsplit⟩ := List.append_of_mem hp
  have hpair := found_pairwise hf hfence
  rw [hsplit, List.pairwise_append, List.pairwise_cons] at hpair
  obtain ⟨-, ⟨hback, -⟩, hfront⟩ := hpair
  refine ⟨front, back, hsplit, fun q hq => ⟨?_, hfront q hq p List.mem_cons_self⟩,
    fun q hq => ⟨?_, hback q hq⟩⟩
  · rw [hsplit]
    exact List.mem_append_left _ hq
  · rw [hsplit]
    exact List.mem_append_right _ (List.mem_cons_of_mem p hq)

theorem insertions_plan {front back : List Found} (h : found file = front ++ p :: back)
    (offset : Nat) : insertions (plan file) offset =
      insertions (front.flatMap fun q => wrap file q.1 q.2.1 q.2.2) offset ++
        (insertions (wrap file p.1 p.2.1 p.2.2) offset ++
          insertions (back.flatMap fun q => wrap file q.1 q.2.1 q.2.2) offset) ++
        insertions (imports file) offset := by
  rw [plan_eq, h, List.flatMap_append, List.flatMap_cons, insertions_append, insertions_append,
    insertions_append]

/-- Where a wrapped element begins, closing tags are inserted, its opening tag, and perhaps the
declaration of an import. -/
theorem insertions_start (hf : file.WellFormed) (hfence : file.Fenced) (hp : p ∈ found file) :
    ∃ xs, (∀ x ∈ xs, ∃ q, x = closeEdit file q) ∧ insertions (plan file) p.1.node.start =
      xs ++ openEdit file p :: insertions (imports file) p.1.node.start := by
  obtain ⟨front, back, hsplit, hfront, hback⟩ := exists_around hf hfence hp
  have hlong := start_lt_stop hf hfence hp
  have hnothing := insertions_wraps_eq_nil hf back p.1.node.start fun q hq => by
    obtain ⟨hmem, hahead⟩ := hback q hq
    have hlongq := start_lt_stop hf hfence hmem
    unfold Ahead at hahead
    exact ⟨hmem, by omega, by omega⟩
  refine ⟨insertions (front.flatMap fun q => wrap file q.1 q.2.1 q.2.2) p.1.node.start,
    fun x hx => ?_, ?_⟩
  · obtain ⟨hmemx, hspan⟩ := List.mem_filter.mp hx
    obtain ⟨q, hq, hed⟩ := List.mem_flatMap.mp hmemx
    obtain ⟨hmem, hahead⟩ := hfront q hq
    have hat : x ∈ insertions (wrap file q.1 q.2.1 q.2.2) p.1.node.start :=
      List.mem_filter.mpr ⟨hed, hspan⟩
    have hlongq := start_lt_stop hf hfence hmem
    unfold Ahead at hahead
    rw [insertions_wrap hf hmem, if_neg (by omega), List.nil_append] at hat
    split at hat
    · exact ⟨q, List.mem_singleton.mp hat⟩
    · cases hat
  · rw [insertions_plan hsplit, insertions_wrap hf hp, hnothing, if_pos rfl,
      if_neg (Nat.ne_of_gt hlong)]
    simp

/-- Where a wrapped element ends, its closing tag is inserted first. -/
theorem insertions_stop (hf : file.WellFormed) (hfence : file.Fenced) (hp : p ∈ found file) :
    ∃ ys, insertions (plan file) p.1.node.stop = closeEdit file p :: ys := by
  obtain ⟨front, back, hsplit, hfront, -⟩ := exists_around hf hfence hp
  have hlong := start_lt_stop hf hfence hp
  have hnothing := insertions_wraps_eq_nil hf front p.1.node.stop fun q hq => by
    obtain ⟨hmem, hahead⟩ := hfront q hq
    have hlongq := start_lt_stop hf hfence hmem
    unfold Ahead at hahead
    exact ⟨hmem, by omega, by omega⟩
  rw [insertions_plan hsplit, insertions_wrap hf hp, hnothing, if_pos rfl,
    if_neg (Nat.ne_of_lt hlong)]
  exact ⟨_, rfl⟩

/-! ### The edit of an import -/

theorem plain_imports : ∀ i ∈ imports file, NamedImport.Plain i.text := by
  intro i hi
  rw [imports] at hi
  split at hi
  · cases hi
  · refine (NamedImport.atImport_of_mem_ensure hi).plain (by decide) fun n hn => ?_
    obtain ⟨p, -, rfl⟩ := List.mem_map.mp (Text.mem_distinct.mp hn)
    cases p.2.1 with
    | container => decide
    | «section» => exact (by decide : '>' ∉ "Section".toList)

theorem imports_clear (hf : file.WellFormed) : (imports file).length ≤ 1 ∧
    ∀ i ∈ imports file, NamedImport.ClearOfElements file i.span := by
  rw [imports]
  split
  · exact ⟨Nat.zero_le _, by simp⟩
  · exact NamedImport.ensure_clear hf module _

theorem ne_tag_of_mem_imports {i : Edit} (hi : i ∈ imports file) (q : Found) :
    i ≠ openEdit file q ∧ i ≠ closeEdit file q := by
  have hplain := (plain_imports i hi).not_mem
  constructor
  · rintro rfl
    obtain ⟨cs, hcs, hmem⟩ := text_openEdit file q
    exact hplain (hcs ▸ List.mem_cons_of_mem _ hmem)
  · rintro rfl
    obtain ⟨cs, hcs, hmem⟩ := text_closeEdit file q
    exact hplain (hcs ▸ List.mem_cons_of_mem _ hmem)

theorem imports_apart (hf : file.WellFormed) {i : Edit} (hi : i ∈ imports file)
    (hp : p ∈ found file) : i.span.Apart p.1.node.span := by
  obtain ⟨-, hin, -⟩ := mem_found hf hp
  have hinside := Node.mem_inside_of_kind_ne hin.node (by rw [hin.kind, hf.program]; decide)
  exact ((imports_clear hf).2 i hi).clear p.1.node hinside hin.kind

theorem mem_plan_of_mem_imports {i : Edit} (hi : i ∈ imports file) : i ∈ plan file := by
  rw [plan_eq]
  exact List.mem_append_right _ hi

theorem mem_plan_of_found (hf : file.WellFormed) (hp : p ∈ found file) :
    openEdit file p ∈ plan file ∧ closeEdit file p ∈ plan file := by
  obtain ⟨he, -, hmatch⟩ := mem_found hf hp
  exact ⟨mem_plan_of_wrap he hmatch (by simp [wrap_eq]),
    mem_plan_of_wrap he hmatch (by simp [wrap_eq])⟩

end Codemod.Layout
end TokenLint
