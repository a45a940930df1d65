import Mathlib.Data.List.Chain
import TokenLint.Proofs.Codemod.Layout.Insertions
import TokenLint.Proofs.Codemod.Settled
import TokenLint.Proofs.NamedImport.Reach

/-!
# What the codemods of elements leave alone

Each edit is at a fixed place: the classes of an element that is found, its names, the end of its
attributes, its own ends, or an import. So every node that is not at such a place, or around one,
reads the same in the new text, and such nodes keep their order.
-/
namespace TokenLint.Codemod

open Source Text EditPlan

/-- The codemods that change elements. -/
inductive Transform where
  | layout
  | button
  | badge

namespace Transform

def codemod : Transform → Codemod
  | layout => Codemod.layout
  | button => Codemod.button
  | badge => Codemod.badge

/-- Whether elements are renamed and get attributes; otherwise they are wrapped. -/
def renames : Transform → Bool
  | layout => false
  | button | badge => true

/-- The classes of an element, if the codemod changes it. -/
def classes? (file : SourceFile) (e : Element) : Transform → Option ClassList
  | layout => (Layout.match? file e).map (·.2)
  | button => (Button.match? file e).map (·.2)
  | badge => Badge.match? file e

/-- The module that has the components. -/
def module : Transform → String
  | layout => Layout.module
  | button => Button.module
  | badge => Badge.module

/-- The components that the codemod makes of elements or puts around them. -/
def components (file : SourceFile) : Transform → List String
  | layout => distinct ((Layout.found file).map fun p => p.2.1.component)
  | button => ["Button"]
  | badge => ["Badge"]

end Transform

/-- Whether there are only blanks in a range. -/
def isSpaces (file : SourceFile) (span : Span) : Bool := (file.slice span).toList.all isSpace

/-- Only blanks stand between children that follow on each other. -/
def Spaced (file : SourceFile) (n : Node) : Prop :=
  n.children.IsChain fun a b => isSpaces file ⟨a.stop, b.start⟩ = true

instance (file : SourceFile) (n : Node) : Decidable (Spaced file n) :=
  inferInstanceAs (Decidable
    (List.IsChain (fun a b : Node => isSpaces file ⟨a.stop, b.start⟩ = true) n.children))

def TagsSpaced (file : SourceFile) : Prop :=
  ∀ tag ∈ file.root.preorder, tag.kind = .jsxOpening → Spaced file tag

instance (file : SourceFile) : Decidable (TagsSpaced file) :=
  inferInstanceAs
    (Decidable (∀ tag ∈ file.root.preorder, tag.kind = .jsxOpening → Spaced file tag))

/-- What an edit at an element with some classes may be. -/
inductive AtElement (file : SourceFile) (e : Element) (c : ClassList) : Bool → Edit → Prop
  | classes (renames : Bool) (s : String) : AtElement file e c renames ⟨c.value.content, s⟩
  /-- The attribute goes, with the blanks before it. -/
  | holder (renames : Bool) (hle : c.before ≤ c.holder.start)
      (hblank : isSpaces file ⟨c.before, c.holder.start⟩ = true) :
      AtElement file e c renames (.delete ⟨c.before, c.holder.stop⟩)
  | name {tag n : Node} (htag : tag ∈ e.opening :: e.closing.toList)
      (hn : tag.child? .name = some n) (s : String) : AtElement file e c true ⟨n.span, s⟩
  | added {anchor : Node} (h : e.attributes.getLast?.or (e.opening.child? .name) = some anchor)
      (s : String) : AtElement file e c true (.insert anchor.stop s)
  | start (s : String) : AtElement file e c false (.insert e.node.start s)
  | stop (s : String) : AtElement file e c false (.insert e.node.stop s)

variable {file : SourceFile} {e : Element} {c : ClassList} {ed : Edit}

/-- The class attribute follows on blanks. -/
theorem spaces_before_holder (hspaced : TagsSpaced file) (he : e.InFile file)
    (hc : e.classList? file = some c) : isSpaces file ⟨c.before, c.holder.start⟩ = true := by
  unfold Element.classList? at hc
  obtain ⟨⟨holder, before⟩, hholder, hc⟩ := Option.bind_eq_some_iff.mp hc
  obtain ⟨value, -, hc⟩ := Option.bind_eq_some_iff.mp hc
  split at hc
  · obtain rfl := Option.some.inj hc
    obtain ⟨pre, post, hcs, -, rfl⟩ := Element.classHolder?_eq_some hholder
    have hchain : Spaced file e.opening :=
      hspaced e.opening (he.mem_child he.opening) he.openingKind
    rw [Spaced, hcs, List.isChain_append] at hchain
    rw [Option.or_none]
    cases hlast : pre.getLast? with
    | none =>
      rw [isSpaces, SourceFile.slice, slice_of_le (Nat.le_refl _)]
      rfl
    | some p => exact hchain.2.2 p hlast holder rfl
  · cases hc

theorem atElement_retain (hf : file.WellFormed) (hspaced : TagsSpaced file) (he : e.InFile file)
    (hc : e.classList? file = some c) (renames : Bool) (keep : String → Bool) :
    AtElement file e c renames (c.retain keep) := by
  unfold ClassList.retain
  split
  · exact .holder renames (ClassList.of_classList? hf he hc).before_le
      (spaces_before_holder hspaced he hc)
  · exact .classes renames _

/-! ### Where the edits are -/

theorem atElement_of_mem_wrap {w : Layout.Wrapper} (hf : file.WellFormed)
    (hspaced : TagsSpaced file) (he : e.InFile file) (hc : e.classList? file = some c)
    (hed : ed ∈ Layout.wrap file e w c) : AtElement file e c false ed := by
  simp only [Layout.wrap, List.mem_cons, List.not_mem_nil, or_false] at hed
  rcases hed with rfl | rfl | rfl
  · exact atElement_retain hf hspaced he hc false _
  · exact .start _
  · exact .stop _

theorem atElement_of_mem_convert (hf : file.WellFormed) (hspaced : TagsSpaced file)
    (he : e.InFile file) (hc : e.classList? file = some c) {keep : String → Bool} {name : String}
    {props : List String}
    (hed : ed ∈ c.retain keep :: e.rename name ++ e.addProps props) :
    AtElement file e c true ed := by
  rcases List.mem_append.mp hed with hed | hed
  · rcases List.mem_cons.mp hed with rfl | hed
    · exact atElement_retain hf hspaced he hc true keep
    · obtain ⟨tag, htag, hed⟩ := List.mem_filterMap.mp hed
      obtain ⟨n, hn, rfl⟩ := Option.map_eq_some_iff.mp hed
      exact .name htag hn name
  · unfold Element.addProps at hed
    split at hed
    · cases hed
    · split at hed
      · cases hed
      · rename_i anchor hanchor
        obtain rfl := List.mem_singleton.mp hed
        exact .added hanchor _

/-- An edit of a conversion is at an element that is found, or at an import. -/
theorem mem_conversion {α : Type} (k : Conversion file α) (hf : file.WellFormed)
    (hspaced : TagsSpaced file) (hed : ed ∈ k.plan) :
    (∃ e ∈ Element.all file, ∃ a, k.find e = some a ∧ AtElement file e (k.classes a) true ed) ∨
      NamedImport.AtImport file k.module [k.name] ed := by
  rw [Conversion.plan] at hed
  split at hed
  · cases hed
  · rcases List.mem_append.mp hed with hed | hed
    · obtain ⟨⟨x, b⟩, hp, hed⟩ := List.mem_flatMap.mp hed
      obtain ⟨y, hy, hp⟩ := List.mem_filterMap.mp hp
      obtain ⟨a, ha, hp⟩ := Option.map_eq_some_iff.mp hp
      obtain ⟨rfl, rfl⟩ := Prod.mk.inj hp
      exact .inl ⟨y, hy, a, ha, atElement_of_mem_convert hf hspaced
        (Element.inFile_of_mem_all hf hy) (k.classList? y a ha) hed⟩
    · exact .inr (NamedImport.atImport_of_mem_ensure hed)

/-- An edit is at an element that the codemod changes, or at an import. -/
theorem Transform.mem_plan (t : Transform) (hf : file.WellFormed) (hspaced : TagsSpaced file)
    (hed : ed ∈ t.codemod.plan file) :
    (∃ e ∈ Element.all file, ∃ c, t.classes? file e = some c ∧
        AtElement file e c t.renames ed) ∨
      NamedImport.AtImport file t.module (t.components file) ed := by
  cases t with
  | layout =>
    have hed : ed ∈ Layout.plan file := hed
    rw [Layout.plan_eq] at hed
    rcases List.mem_append.mp hed with hed | hed
    · obtain ⟨x, hx, w, c, hmatch, hed⟩ := Layout.mem_wraps.mp hed
      exact .inl ⟨x, hx, c, by rw [Transform.classes?, hmatch]; rfl,
        atElement_of_mem_wrap hf hspaced (Element.inFile_of_mem_all hf hx)
          (Layout.classList?_of_match? hmatch) hed⟩
    · rw [Layout.imports] at hed
      split at hed
      · cases hed
      · exact .inr (NamedImport.atImport_of_mem_ensure hed)
  | button =>
    refine (mem_conversion (Button.conversion file) hf hspaced hed).imp_left ?_
    rintro ⟨x, hx, a, ha, hat⟩
    exact ⟨x, hx, a.2, Option.map_eq_some_iff.mpr ⟨a, ha, rfl⟩, hat⟩
  | badge => exact mem_conversion (Badge.conversion file) hf hspaced hed

theorem Transform.spread_plan (t : Transform) (hf : file.WellFormed) :
    (t.codemod.plan file).Spread file.text.toList := by
  cases t with
  | layout => exact Layout.spread_plan hf
  | button => exact Button.spread_plan hf
  | badge => exact Badge.spread_plan hf

theorem Transform.classList?_of_classes? (t : Transform) (h : t.classes? file e = some c) :
    e.classList? file = some c := by
  cases t with
  | layout =>
    obtain ⟨a, ha, rfl⟩ := Option.map_eq_some_iff.mp h
    exact Layout.classList?_of_match? ha
  | button =>
    obtain ⟨a, ha, rfl⟩ := Option.map_eq_some_iff.mp h
    exact Button.classList?_of_match? ha
  | badge => exact Badge.classList?_of_match? h

/-! ### What they do not reach -/

/-- What may read otherwise in the new text: what holds an element that is changed, a tag of it,
a name in such a tag, the class attribute, and what the edit of an import reaches. -/
inductive Touched (file : SourceFile) (t : Transform) (n : Node) : Prop
  | above {e : Element} {c : ClassList} (he : e ∈ Element.all file)
      (hc : t.classes? file e = some c) (hn : e.node ∈ n.preorder)
  | opening {e : Element} {c : ClassList} (he : e ∈ Element.all file)
      (hc : t.classes? file e = some c) (hn : n = e.opening)
  | closing {e : Element} {c : ClassList} (he : e ∈ Element.all file)
      (hc : t.classes? file e = some c) (hrenames : t.renames = true) (hn : n ∈ e.closing.toList)
  | name {e : Element} {c : ClassList} (he : e ∈ Element.all file)
      (hc : t.classes? file e = some c) (hrenames : t.renames = true) {tag m : Node}
      (htag : tag ∈ e.opening :: e.closing.toList) (hm : tag.child? .name = some m)
      (hn : n ∈ m.preorder)
  | classes {e : Element} {c : ClassList} (he : e ∈ Element.all file)
      (hc : t.classes? file e = some c) (hn : n ∈ c.holder.preorder)
  | reached {ed : Edit} (hed : ed ∈ t.codemod.plan file)
      (hat : NamedImport.AtImport file t.module (t.components file) ed)
      (h : NamedImport.Reached ed n)

section
variable (hf : file.WellFormed) {t : Transform} (he : e ∈ Element.all file)
  (hc : t.classes? file e = some c) {n : Node}
include hf he hc

/-- What lies in an element that is changed reaches a node around it or below it. -/
theorem touched_or_inside {span : Span} (hwithin : span.Within e.node.span)
    (hn : n ∈ file.root.preorder) :
    Touched file t n ∨ span.Apart n.span ∨ n ∈ e.node.inside := by
  have hin := Element.inFile_of_mem_all hf he
  rcases Node.apart_or_below hf.nests hin.node hn with hapart | hbelow | habove
  · exact .inr (.inl (hapart.mono hwithin (Span.Within.refl _)))
  · rcases Node.mem_preorder.mp hbelow with rfl | hinside
    · exact .inl (.above he hc (Node.mem_preorder_self _))
    · exact .inr (.inr hinside)
  · exact .inl (.above he hc habove)

omit hc in
/-- What lies in a tag reaches the tag or a node below it. -/
theorem mem_tag_or_apart {tag : Node} (htag : tag ∈ e.opening :: e.closing.toList) {span : Span}
    (hwithin : span.Within tag.span) (hn : n ∈ e.node.inside) :
    n = tag ∨ n ∈ tag.inside ∨ span.Apart n.span := by
  have hin := Element.inFile_of_mem_all hf he
  rcases Node.mem_or_apart (hin.nests hf) (hin.tag htag).1 hn with hbelow | hapart
  · exact (Node.mem_preorder.mp hbelow).imp_right .inl
  · exact .inr (.inr (hapart.symm.mono hwithin (Span.Within.refl _)))

theorem touched_or_apart_of_slot {span : Span} (hwithin : span.Within c.slot)
    (hn : n ∈ e.node.inside) : Touched file t n ∨ span.Apart n.span := by
  have hin := Element.inFile_of_mem_all hf he
  have hof := ClassList.of_classList? hf hin (t.classList?_of_classes? hc)
  have hopen := hwithin.trans (ClassList.slot_within hof hf hin)
  rcases mem_tag_or_apart hf he List.mem_cons_self hopen hn with rfl | hinside | hapart
  · exact .inl (.opening he hc rfl)
  · obtain ⟨d, hd, hmem⟩ := Node.mem_inside.mp hinside
    have hroot := Node.mem_preorder_child (hin.mem_child hin.opening) hd
    rcases hof.apart d hd with rfl | hapart
    · exact .inl (.classes he hc hmem)
    · exact .inr (hapart.mono hwithin
        (Node.within_of_mem_preorder (Node.nests_of_mem hf.nests hroot) hmem))
  · exact .inr hapart

theorem touched_or_apart_of_name (hrenames : t.renames = true) {tag m : Node}
    (htag : tag ∈ e.opening :: e.closing.toList) (hm : tag.child? .name = some m)
    (hn : n ∈ e.node.inside) : Touched file t n ∨ m.span.Apart n.span := by
  have hin := Element.inFile_of_mem_all hf he
  have htagroot := hin.mem_child (hin.tag htag).1
  have hmem := (Node.mem_children_of_child? hm).1
  have hwithin := (hf.nests tag htagroot).child_within hmem
  rcases mem_tag_or_apart hf he htag hwithin hn with rfl | hinside | hapart
  · rcases List.mem_cons.mp htag with rfl | hclosing
    · exact .inl (.opening he hc rfl)
    · exact .inl (.closing he hc hrenames hclosing)
  · rcases Node.mem_or_apart (Node.nests_of_mem hf.nests htagroot) hmem hinside with hbelow | hapart
    · exact .inl (.name he hc hrenames htag hm hbelow)
    · exact .inr hapart.symm
  · exact .inr hapart

theorem touched_or_apart_of_added {anchor : Node} (hmem : anchor ∈ e.opening.children)
    (hn : n ∈ e.node.inside) : Touched file t n ∨ Span.Apart ⟨anchor.stop, anchor.stop⟩ n.span := by
  have hin := Element.inFile_of_mem_all hf he
  have hopen := hin.mem_child hin.opening
  have hroot := Node.mem_preorder_child hopen hmem
  have hle := (hf.nests anchor hroot).ordered
  have hwithin := (hf.nests anchor hroot).stop_within.trans
    ((hf.nests e.opening hopen).child_within hmem)
  rcases mem_tag_or_apart hf he List.mem_cons_self hwithin hn with rfl | hinside | hapart
  · exact .inl (.opening he hc rfl)
  · obtain ⟨d, hd, hbelow⟩ := Node.mem_inside.mp hinside
    have hdn := Node.nests_of_mem hf.nests (Node.mem_preorder_child hopen hd)
    exact .inr (((hf.nests e.opening hopen).stop_apart hmem hd hle).mono (Span.Within.refl _)
      (Node.within_of_mem_preorder hdn hbelow))
  · exact .inr hapart

theorem AtElement.touched_or_apart {renames : Bool} (hrenames : t.renames = renames)
    (h : AtElement file e c renames ed) (hn : n ∈ file.root.preorder) :
    Touched file t n ∨ ed.span.Apart n.span := by
  have hin := Element.inFile_of_mem_all hf he
  have hof := ClassList.of_classList? hf hin (t.classList?_of_classes? hc)
  have hroot := hf.nests e.node hin.node
  have hopen := hin.mem_child hin.opening
  have hslot := (ClassList.slot_within hof hf hin).trans (hroot.child_within hin.opening)
  -- what the edit reaches is settled inside of the element
  have hup : ed.span.Within e.node.span →
      (n ∈ e.node.inside → Touched file t n ∨ ed.span.Apart n.span) →
      Touched file t n ∨ ed.span.Apart n.span := fun hwithin hinside =>
    (touched_or_inside hf he hc hwithin hn).elim .inl fun h => h.elim .inr hinside
  have hbounds : n ∈ e.node.inside → n.span.Within e.node.span :=
    Node.within_of_mem_inside (hin.nests hf)
  cases h with
  | classes _ s =>
    have hwithin := ClassList.content_within_slot hof hf hin
    exact hup (hwithin.trans hslot) (touched_or_apart_of_slot hf he hc hwithin)
  | holder _ hle hblank =>
    exact hup hslot (touched_or_apart_of_slot hf he hc (Span.Within.refl c.slot))
  | @name tag m htag hm s =>
    have htagroot := hin.mem_child (hin.tag htag).1
    have hwithin := ((hf.nests tag htagroot).child_within (Node.mem_children_of_child? hm).1).trans
      (hroot.child_within (hin.tag htag).1)
    exact hup hwithin (touched_or_apart_of_name hf he hc hrenames htag hm)
  | @added anchor h s =>
    have hmem : anchor ∈ e.opening.children := by
      rcases Option.or_eq_some_iff.mp h with hlast | ⟨-, hname⟩
      · exact (List.mem_filter.mp (List.mem_of_getLast? hlast)).1
      · exact (Node.mem_children_of_child? hname).1
    have hanchor := hf.nests anchor (Node.mem_preorder_child hopen hmem)
    have hwithin := (hanchor.stop_within.trans ((hf.nests e.opening hopen).child_within hmem)).trans
      (hroot.child_within hin.opening)
    exact hup hwithin (touched_or_apart_of_added hf he hc hmem)
  | start s =>
    exact hup hroot.start_within fun hinside => .inr (.inl (hbounds hinside).1)
  | stop s =>
    exact hup hroot.stop_within fun hinside => .inr (.inr (hbounds hinside).2)

end

/-- A node that is not touched is apart from all edits. -/
theorem Transform.apart_of_not_touched (t : Transform) (hf : file.WellFormed)
    (hspaced : TagsSpaced file) {n : Node} (hn : n ∈ file.root.preorder)
    (hnot : ¬Touched file t n) : ∀ ed ∈ t.codemod.plan file, ed.span.Apart n.span := by
  intro ed hed
  rcases t.mem_plan hf hspaced hed with ⟨e, he, c, hc, hat⟩ | hat
  · exact (hat.touched_or_apart hf he hc rfl hn).resolve_left hnot
  · rcases hat.reached_or_apart hf hn with hreached | hapart
    · exact absurd (.reached hed hat hreached) hnot
    · exact hapart

theorem uncrossed_of_apart {plan : EditPlan} {n : Node} (hle : n.start ≤ n.stop)
    (h : ∀ ed ∈ plan, ed.span.Apart n.span) : plan.Uncrossed n.start ∧ plan.Uncrossed n.stop := by
  refine ⟨fun ed hed => ?_, fun ed hed => ?_⟩
  · exact (h ed hed).imp_right hle.trans
  · exact (h ed hed).imp_left fun hstop => Nat.le_trans hstop hle

/-- What the plan of a codemod does to a file: the places of its edits, and what is left in the
new text. -/
structure Framed (file : SourceFile) (t : Transform) (plan : EditPlan) : Prop where
  places : ∀ ed ∈ plan,
    (∃ e ∈ Element.all file, ∃ c, t.classes? file e = some c ∧ AtElement file e c t.renames ed) ∨
      NamedImport.AtImport file t.module (t.components file) ed
  /-- The new text is the old one with nothing else replaced. -/
  replaced : Replaced 0 file.text.toList (ordered plan) (plan.apply file.text).toList
  unchanged : ∀ n ∈ file.root.preorder, ¬Touched file t n →
    slice (plan.apply file.text) (plan.image n.span) = file.nodeText n
  inOrder : ∀ m ∈ file.root.preorder, ∀ n ∈ file.root.preorder, ¬Touched file t m →
    ¬Touched file t n → m.stop ≤ n.start → (plan.image m.span).stop ≤ (plan.image n.span).start

/-- Every edit is at the classes, the names, the attributes' end or the ends of an element that is
changed, or at an import, and the new text is the old one with nothing else replaced. A node that
no such place touches reads the same there, and such nodes keep their order. -/
theorem Transform.frame (t : Transform) (hf : file.WellFormed) (hspaced : TagsSpaced file) :
    Framed file t (t.codemod.plan file) := by
  have hspread := t.spread_plan hf
  constructor
  case places => exact fun ed hed => t.mem_plan hf hspaced hed
  case replaced => exact hspread.replaced
  case unchanged =>
    intro n hn hnot
    exact hspread.slice_image_of_apart ((hf.aligned n hn).isRange (hf.nests n hn))
      (t.apart_of_not_touched hf hspaced hn hnot)
  case inOrder =>
    intro m hm n hn hmnot hnnot hmn
    have hmapart := t.apart_of_not_touched hf hspaced hm hmnot
    have hnapart := t.apart_of_not_touched hf hspaced hn hnnot
    exact hspread.back_le_front hmn (uncrossed_of_apart (hf.nests m hm).ordered hmapart).2
      (uncrossed_of_apart (hf.nests n hn).ordered hnapart).1

/-- A button with a handler behind its classes. -/
def handled : SourceFile := SourceFile.parse "a=<button class='w-full' onClick=\x7bf\x7d>x</button>"

theorem handled_frame : handled.WellFormed ∧ TagsSpaced handled ∧
    Framed handled .button (button.plan handled) := by
  have hwf : handled.WellFormed := by decide +kernel
  have hspaced : TagsSpaced handled := by decide +kernel
  exact ⟨hwf, hspaced, Transform.button.frame hwf hspaced⟩

/-- An import whose braces are empty. -/
def emptyBraces : SourceFile :=
  SourceFile.parse "import \x7b\x7d from \"@/components/patterns\";a=<p class='py-8'>x</p>"

/-- The braces, which are before every element, are replaced; nothing is inserted there. -/
theorem emptyBraces_replaced : emptyBraces.WellFormed ∧ TagsSpaced emptyBraces ∧
    ∃ ed ∈ layout.plan emptyBraces, emptyBraces.slice ed.span = "\x7b\x7d" ∧
      ed.text = "\x7b Section \x7d" ∧ ed.span.start < ed.span.stop ∧
      ∀ e ∈ Element.all emptyBraces, ed.span.stop ≤ e.node.start := by
  decide +kernel

end TokenLint.Codemod
