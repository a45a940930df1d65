import TokenLint.Proofs.Codemod.Layout.Edits

/-!
# The layout wrappers in a second run

A second run finds the elements of the first one again, and the wrappers around them. What it
reads in their tags is what was there, but for the classes that were taken.
-/
namespace TokenLint.Codemod.Layout

open Source Text

/-- The second file has the text that the plan makes of the first one. It has the elements of the
first one, each with the parts that are left of its tag, and no others but wrappers. -/
structure Rereads (file file' : SourceFile) : Prop where
  text : file'.text = (plan file).apply file.text
  again : ∀ e ∈ Element.all file, ∃ e' ∈ Element.all file', e'.parts = e.partsAfter (plan file)
  only : ∀ e' ∈ Element.all file', e'.tagName file' ∈ wrapperTags ∨
    ∃ e ∈ Element.all file, e'.parts = e.partsAfter (plan file)

/-- An element that was wrapped calls for no wrapper any more: no other group of classes was
complete and, if the attribute goes, no later one calls for a wrapper. -/
structure Settled (file : SourceFile) (e : Element) (w : Wrapper) (c : ClassList) : Prop where
  groups : ∀ g ∈ Wrapper.groups, g ≠ w.group → ∃ name ∈ g, name ∉ c.classes
  later : w.left c.classes = [] → ∀ classes, e.laterClasses? file = some classes →
    Wrapper.ofClasses? classes.contains = none

/-- Whether the plan leaves a child of a tag. -/
def stays (file : SourceFile) (d : Node) : Bool := !(plan file).covers d.span

/-- What a child of a tag says in the new text. -/
def after (file file' : SourceFile) (d : Node) : Reading :=
  ((Part.ofNode d).image (plan file)).read file'

variable {file file' : SourceFile} {e : Element}

section
variable (hf : file.WellFormed) (he : e ∈ Element.all file)
include hf he

/-- The class attribute of an element that is wrapped, among the children of the tag. -/
theorem exists_holder {w : Wrapper} {c : ClassList} (hmatch : match? file e = some (w, c)) :
    ∃ pre post, e.opening.children = pre ++ c.holder :: post ∧
      Element.isClassAttribute file c.holder ∧
      (pre.map fun d => (Part.ofNode d).read file).find? (·.isClass) = none ∧
      ∀ d ∈ pre ++ post, d ∈ e.opening.children ∧ d ≠ c.holder := by
  have hin := Element.inFile_of_mem_all hf he
  have hopen := hin.mem_child hin.opening
  obtain ⟨pre, post, hcs, hclass, hpre, -⟩ := Element.exists_holder (classList?_of_match? hmatch)
  refine ⟨pre, post, hcs, hclass, ?_, fun d hd => ⟨?_, ?_⟩⟩
  · rw [List.find?_eq_none, List.forall_mem_map]
    intro d hd
    rw [Element.isClass_read, hpre d hd]
    decide
  · rw [hcs]
    rcases List.mem_append.mp hd with hd | hd <;> simp [hd]
  · rintro rfl
    rcases List.mem_append.mp hd with hd | hd
    · rw [hpre _ hd] at hclass
      cases hclass
    · -- what stands behind the holder begins where the holder, which has a name, has ended
      have hapart := (hf.nests e.opening hopen).apart
      rw [hcs] at hapart
      have hle := (List.pairwise_cons.mp (List.pairwise_append.mp hapart).2.1).1 _ hd
      obtain ⟨name, -, hs, hne⟩ := Element.name_of_isClass hclass
      have hwithin := (hin.holds_name hf (by rw [hcs]; simp) hs).2
      have hstart : c.holder.start ≤ name.start := hwithin.1
      have hstop : name.stop ≤ c.holder.stop := hwithin.2
      omega

variable (htext : file'.text = (plan file).apply file.text) {d : Node}
  (hd : d ∈ e.opening.children)
include htext hd

/-- A child of the tag that the element's own edit of the classes does not touch says the same, and
it stays if it has the tag's name or classes. -/
theorem after_child (hown : OwnApart file e d.span) :
    after file file' d = (Part.ofNode d).read file ∧
      (d.role = .name ∨ Element.isClassAttribute file d → stays file d = true) := by
  have hin := Element.inFile_of_mem_all hf he
  obtain ⟨hsame, hcounts⟩ := hin.child_untouched hf (spread_plan hf) htext hd fun s hs hwithin =>
    apart_of_holds hf he hs (hown.mono hwithin)
  refine ⟨hsame, fun h => ?_⟩
  rw [stays, hcounts h]
  rfl

end

section
variable (hf : file.WellFormed) (he : e ∈ Element.all file)
include hf he

section
variable {w : Wrapper} {c : ClassList} (hmatch : match? file e = some (w, c))
include hmatch

/-- With no class left the attribute does not stay. -/
theorem not_stays_holder (hleft : w.left c.classes = []) : stays file c.holder = false := by
  have hin := Element.inFile_of_mem_all hf he
  obtain ⟨pre, post, hcs, hclass, -⟩ := exists_holder hf he hmatch
  have hedit := mem_plan_of_wrap he hmatch List.mem_cons_self
  rw [retain_of_left_eq_nil hleft] at hedit
  have hbefore := (ClassList.of_classList? hf hin (classList?_of_match? hmatch)).before_le
  obtain ⟨name, -, hname, hne⟩ := Element.name_of_isClass hclass
  have hwithin := (hin.holds_name hf (by simp [hcs]) hname).2
  have hholder : c.holder.start < c.holder.stop :=
    Nat.lt_of_le_of_lt hwithin.1 (Nat.lt_of_lt_of_le hne hwithin.2)
  have hcovers : (plan file).covers c.holder.span = true := by
    refine Bool.and_eq_true_iff.mpr
      ⟨decide_eq_true hholder, List.any_eq_true.mpr ⟨_, hedit, Bool.and_eq_true_iff.mpr ?_⟩⟩
    exact ⟨decide_eq_true hbefore, decide_eq_true (Nat.le_refl _)⟩
  rw [stays, hcovers]
  rfl

/-- With classes left the attribute stays, and they are what it says. -/
theorem after_holder (htext : file'.text = (plan file).apply file.text)
    (hleft : w.left c.classes ≠ []) :
    stays file c.holder = true ∧ (after file file' c.holder).isClass = true ∧
      (after file file' c.holder).string = some (" ".intercalate (w.left c.classes)) := by
  have hin := Element.inFile_of_mem_all hf he
  obtain ⟨pre, post, hcs, hclass, -, hvalue, hkind, hclasses⟩ :=
    Element.exists_holder (classList?_of_match? hmatch)
  have hholder : c.holder ∈ e.opening.children := by simp [hcs]
  have hretain := retain_of_left_ne_nil hleft
  have hedit := mem_plan_of_wrap he hmatch List.mem_cons_self
  rw [hretain] at hedit
  -- the name of the attribute stands before the edit
  obtain ⟨name, hhead, hname, hne⟩ := Element.name_of_isClass hclass
  obtain ⟨hholds, hwithin⟩ := hin.holds_name hf hholder hname
  have hbefore : name.stop ≤ c.value.content.start := by
    have hroot := Node.mem_preorder_child (hin.mem_child hin.opening) hholder
    have hvroot := Node.mem_preorder_child hroot (List.mem_of_getElem? hvalue)
    exact Nat.le_trans ((hf.nests c.holder hroot).head_before hhead hvalue)
      (Node.content_within (hf.nests c.value hvroot)).1
  have hapart := apart_of_holds hf he hholds
    (ownApart_of_match hmatch (by rw [hretain]; exact .inr hbefore))
  refine ⟨?_, ?_, ?_⟩
  · rw [stays, EditPlan.not_covers hwithin (fun _ => hne) hapart]
    rfl
  · have hsame := Part.read_image_name (spread_plan hf) htext fun s hs => by
      obtain rfl := Option.some.inj (hname.symm.trans hs)
      exact ⟨hholds.fits, hapart⟩
    rw [← Element.isClass_read, Reading.isClass, ← hsame] at hclass
    exact hclass
  · have hplace : (Part.ofNode c.holder).string = some c.value.content := by
      rw [Element.string_of_isClass hclass, hvalue, Option.filter_some, hkind]
      rfl
    have hcontent : c.value.content.start < c.value.content.stop := by
      refine Nat.lt_of_not_le fun hle => hleft ?_
      rw [hclasses, SourceFile.slice, slice_of_le hle]
      rfl
    rw [after, Part.read, Part.image, hplace, Option.map_some, Option.map_some, SourceFile.slice,
      htext, (spread_plan hf).slice_image_of_mem hedit hcontent]

end

section
variable (htext : file'.text = (plan file).apply file.text) {e' : Element}
include htext

/-- Among children that the element's own edit does not touch a class attribute is found again. -/
theorem find?_isClass_after (ds : List Node)
    (hds : ∀ d ∈ ds, d ∈ e.opening.children ∧ OwnApart file e d.span) :
    ((ds.filter (stays file)).map (after file file')).find? (·.isClass) =
      (ds.map fun d => (Part.ofNode d).read file).find? (·.isClass) := by
  have hchild := fun d hd => after_child hf he htext (hds d hd).1 (hds d hd).2
  refine Reading.find?_filter_map (fun d hd hclass => ?_) fun d hd _ => by rw [(hchild d hd).1]
  rw [Element.isClass_read] at hclass
  exact ⟨(hchild d hd).2 (.inr hclass), (hchild d hd).1⟩

variable (hparts : e'.parts = e.partsAfter (plan file))
include hparts

theorem tag_after : Reading.tag (e'.reading file') = Reading.tag (e.reading file) := by
  rw [Element.reading_after hparts, Element.reading_eq, Reading.tag, Reading.tag]
  congr 2
  refine Reading.find?_filter_map (fun d hd hname => ?_) fun d _ _ => rfl
  have hrole : d.role = .name := by
    rw [← Part.role_ofNode]
    exact beq_iff_eq.mp hname
  have hown : OwnApart file e d.span := by
    cases hmatch : match? file e with
    | none => exact ownApart_of_none hmatch _
    | some found =>
      refine ownApart_of_ne hf he (w := found.1) (c := found.2) hmatch hd fun hholder => ?_
      have hc := ClassList.of_classList? hf (Element.inFile_of_mem_all hf he)
        (classList?_of_match? hmatch)
      rw [hholder, hc.role] at hrole
      cases hrole
  obtain ⟨hsame, hstays⟩ := after_child hf he htext hd hown
  exact ⟨hstays (.inl hrole), hsame⟩

variable {w : Wrapper} {c : ClassList}

/-- With no class left the attribute goes, and the next one counts. -/
theorem classes?_of_left_eq_nil (hmatch : match? file e = some (w, c))
    (hleft : w.left c.classes = []) :
    Reading.classes? (e'.reading file') = e.laterClasses? file := by
  obtain ⟨pre, post, hcs, hclass, hpre, hothers⟩ := exists_holder hf he hmatch
  have hgone := not_stays_holder hf he hmatch hleft
  have hfilter : e.opening.children.filter (stays file) = (pre ++ post).filter (stays file) := by
    rw [hcs, List.filter_append, List.filter_append, List.filter_cons_of_neg (by simp [hgone])]
  have hfind := find?_isClass_after hf he htext (pre ++ post) fun d hd =>
    ⟨(hothers d hd).1, ownApart_of_ne hf he hmatch (hothers d hd).1 (hothers d hd).2⟩
  have hafter : Reading.classes? (e'.reading file') =
      Reading.classes? (post.map fun d => (Part.ofNode d).read file) := by
    have hreading :
        e'.reading file' = ((pre ++ post).filter (stays file)).map (after file file') := by
      rw [← hfilter]
      exact Element.reading_after hparts file'
    rw [hreading, Reading.classes?, hfind, List.map_append, List.find?_append, hpre, Option.none_or,
      Reading.classes?]
  have hlater : ((e.reading file).dropWhile (!·.isClass)).drop 1 =
      post.map fun d => (Part.ofNode d).read file := by
    rw [Element.reading_eq, hcs, List.map_append, List.dropWhile_append_of_pos, List.map_cons,
      List.dropWhile_cons_of_neg]
    · rfl
    · rw [Element.isClass_read, hclass]
      decide
    · simpa using hpre
  rw [hafter, Element.laterClasses?, hlater]

/-- The classes that are left are read back from the attribute. -/
theorem classes?_of_left_ne_nil (hmatch : match? file e = some (w, c))
    (hleft : w.left c.classes ≠ []) :
    Reading.classes? (e'.reading file') = some (w.left c.classes) := by
  obtain ⟨pre, post, hcs, -, hpre, hothers⟩ := exists_holder hf he hmatch
  -- No child before the holder is a class attribute in either text, so the holder is found again.
  obtain ⟨hstays, hclass, hstring⟩ := after_holder hf he hmatch htext hleft
  have hreading : e'.reading file' = (pre.filter (stays file)).map (after file file') ++
      after file file' c.holder :: (post.filter (stays file)).map (after file file') := by
    rw [← List.map_cons, ← List.filter_cons_of_pos hstays, ← List.map_append, ← List.filter_append,
      ← hcs]
    exact Element.reading_after hparts file'
  have hfind := find?_isClass_after hf he htext pre fun d hd => by
    obtain ⟨hmem, hne⟩ := hothers d (List.mem_append_left _ hd)
    exact ⟨hmem, ownApart_of_ne hf he hmatch hmem hne⟩
  have hwords : ∀ name ∈ w.left c.classes, IsWord name := fun name hname => by
    obtain ⟨-, -, -, -, -, -, -, hclasses⟩ := Element.exists_holder (classList?_of_match? hmatch)
    rw [Wrapper.left, mem_distinct, List.mem_filter, hclasses] at hname
    exact isWord_of_mem_words hname.1
  rw [hreading, Reading.classes?, List.find?_append, hfind, hpre, Option.none_or,
    List.find?_cons_of_pos hclass, Option.bind_some, hstring, Option.map_some,
    words_intercalate hwords]

/-- A second run passes over an element that was not wrapped, and over one that is settled. -/
theorem wrapper?_after : wrapper? (e'.reading file') = none ↔
    ∀ w c, match? file e = some (w, c) → Settled file e w c := by
  have htag := tag_after hf he htext hparts
  cases hmatch : match? file e with
  | none =>
    refine iff_of_true ?_ (by simp)
    have hbefore : wrapper? (e.reading file) = none := by
      rw [← map_match?, hmatch]
      rfl
    have hfind := find?_isClass_after hf he htext e.opening.children fun d hd =>
      ⟨hd, ownApart_of_none hmatch _⟩
    have hclasses : Reading.classes? (e'.reading file') = Reading.classes? (e.reading file) := by
      rw [Reading.classes?, Reading.classes?, Element.reading_after hparts, Element.reading_eq e,
        ← hfind]
      rfl
    rw [wrapper?, htag, hclasses]
    exact hbefore
  | some found =>
    obtain ⟨w, c⟩ := found
    obtain ⟨hother, hcalls⟩ := matched hmatch
    have hgroups := Wrapper.ofClasses?_left_eq_none_iff hcalls
    have hone : (∀ w' c', some (w, c) = some (w', c') → Settled file e w' c') ↔
        Settled file e w c := by
      refine ⟨fun h => h w c rfl, fun h w' c' heq => ?_⟩
      obtain ⟨rfl, rfl⟩ := Prod.mk.inj (Option.some.inj heq)
      exact h
    rw [hone, wrapper?, htag, Element.tag_reading, hother, if_neg Bool.false_ne_true]
    by_cases hleft : w.left c.classes = []
    · rw [classes?_of_left_eq_nil hf he htext hparts hmatch hleft, Option.bind_eq_none_iff]
      refine ⟨fun hlater => ⟨hgroups.mp ?_, fun _ => hlater⟩, fun h => h.later hleft⟩
      rw [hleft]
      decide
    · rw [classes?_of_left_ne_nil hf he htext hparts hmatch hleft, Option.bind_some, hgroups]
      exact ⟨fun hgroup => ⟨hgroup, fun hnil => absurd hnil hleft⟩, fun h => h.groups⟩

end
end

/-- A second run has nothing to do just when every element that the first run wraps is settled. -/
theorem plan_reread_eq_nil_iff (hf : file.WellFormed) (h : Rereads file file') :
    plan file' = [] ↔
      ∀ e ∈ Element.all file, ∀ w c, match? file e = some (w, c) → Settled file e w c := by
  rw [plan_eq_nil_iff]
  constructor
  · intro hnone e he
    obtain ⟨e', he', hparts⟩ := h.again e he
    exact (wrapper?_after hf he h.text hparts).mp (hnone e' he')
  · intro hall e' he'
    rcases h.only e' he' with htag | ⟨e, he, hparts⟩
    · rw [wrapper?, Element.tag_reading, if_pos (by simpa using htag)]
    · exact (wrapper?_after hf he h.text hparts).mpr (hall e he)

/-- A section that has a second class attribute. -/
def doubled : SourceFile := SourceFile.parse "a=<p class='py-8' className='b'>x</p>"

/-- The file that the first run leaves of it. -/
def doubledAgain : SourceFile := SourceFile.parse
  ("import \x7b Section \x7d from \"@/components/patterns\";\n\n" ++
    "a=<Section size=\"sm\">\n  <p className='b'>x</p>\n</Section>")

theorem doubled_reread_eq_nil_iff : doubled.WellFormed ∧ Rereads doubled doubledAgain ∧
    (plan doubledAgain = [] ↔ ∀ e ∈ Element.all doubled, ∀ w c,
      match? doubled e = some (w, c) → Settled doubled e w c) := by
  have hf : doubled.WellFormed := by decide +kernel
  have hplan : plan doubled = [.delete ⟨4, 17⟩, .insert 2 "<Section size=\"sm\">\n  ",
      .insert 37 "\n</Section>",
      .insert 0 "import \x7b Section \x7d from \"@/components/patterns\";\n\n"] := by
    decide +kernel
  have htext : doubledAgain.text = (plan doubled).apply doubled.text := by
    rw [hplan, EditPlan.apply_eq_insertionSort (by decide)]
    decide +kernel
  have helements : (∀ e ∈ Element.all doubled, ∃ e' ∈ Element.all doubledAgain,
      e'.parts = e.partsAfter (plan doubled)) ∧
      ∀ e' ∈ Element.all doubledAgain, e'.tagName doubledAgain ∈ wrapperTags ∨
        ∃ e ∈ Element.all doubled, e'.parts = e.partsAfter (plan doubled) := by
    rw [hplan]
    decide +kernel
  have h : Rereads doubled doubledAgain := ⟨htext, helements.1, helements.2⟩
  exact ⟨hf, h, plan_reread_eq_nil_iff hf h⟩

/-- A container that is padded like a section is wrapped again in the next run. -/
theorem paddedContainer_wrapped_twice :
    let text := "a=<p class='py-8 mx-auto max-w-7xl'>x</p>"
    let again := "import \x7b Container \x7d from \"@/components/patterns\";\n\n" ++
      "a=<Container>\n  <p class='py-8'>x</p>\n</Container>"
    layout.revise? text = some again ∧ layout.plan (SourceFile.parse again) ≠ [] := by
  intro text again
  have hplan : layout.plan (SourceFile.parse text) = [⟨⟨12, 34⟩, "py-8"⟩,
      .insert 2 "<Container>\n  ", .insert 41 "\n</Container>",
      .insert 0 "import \x7b Container \x7d from \"@/components/patterns\";\n\n"] := by
    decide +kernel
  have htext : (layout.plan (SourceFile.parse text)).apply text = again := by
    rw [hplan, EditPlan.apply_eq_insertionSort (by decide)]
    decide +kernel
  refine ⟨?_, by decide +kernel⟩
  rw [Codemod.revise?, htext, hplan]
  rfl

end TokenLint.Codemod.Layout
