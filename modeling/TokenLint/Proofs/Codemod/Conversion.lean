import TokenLint.Proofs.Codemod.Component
import TokenLint.Proofs.Element.Reading

/-!
# Elements that are converted, in a second run

A conversion looks at the name and the classes of a tag, and gives another name to what it finds.
In the new text a converted element has the new name, which calls for nothing; of any other element
the name and the classes are what they were.
-/
namespace TokenLint

open Source Text

/-! ### Tags in the new text -/

/-- Whether a plan takes away the whole of a range that is not empty. -/
def EditPlan.deletes (plan : EditPlan) (span : Span) : Bool :=
  EditPlan.covers (plan.filter (·.text == "")) span

theorem EditPlan.not_deletes {plan : EditPlan} {span : Span} (h : plan.covers span = false) :
    plan.deletes span = false := by
  rw [deletes, covers, Bool.and_eq_false_iff, List.any_eq_false]
  rw [covers, Bool.and_eq_false_iff, List.any_eq_false] at h
  exact h.imp_right fun h e he => h e (List.mem_filter.mp he).1

theorem find?_filter_of_find? {α : Type} {p q : α → Bool} {as : List α} {a : α}
    (h : as.find? p = some a) (hq : q a = true) : (as.filter q).find? p = some a := by
  obtain ⟨hp, pre, post, rfl, hpre⟩ := List.find?_eq_some_iff_append.mp h
  rw [List.filter_append, List.filter_cons_of_pos hq]
  exact List.find?_eq_some_iff_append.mpr
    ⟨hp, pre.filter q, post.filter q, rfl, fun b hb => hpre b (List.mem_filter.mp hb).1⟩

namespace Element

/-- The parts of the tag that a plan does not take away, where they are in the new text. -/
def partsLeft (e : Element) (plan : EditPlan) : List Part :=
  (e.opening.children.filter (!plan.deletes ·.span)).map fun n => (Part.ofNode n).image plan

/-- An element of the new text has the parts that are left of an old one, with attributes among
them if it was changed. -/
def Again (plan : EditPlan) (changed : Bool) (e e' : Element) : Prop :=
  ∃ front back added, e.partsLeft plan = front ++ back ∧ e'.parts = front ++ (added ++ back) ∧
    (∀ p ∈ added, p.role = .attribute) ∧ (changed = false → added = [])

variable {plan : EditPlan} {changed : Bool} {e e' : Element}

theorem again_of_take {k : Nat} (hleft : e.partsLeft plan = e'.parts.take k)
    (hadded : ∀ p ∈ e'.parts.drop k, p.role = .attribute)
    (hsame : changed = false → e'.parts.drop k = []) : e.Again plan changed e' :=
  ⟨e'.parts.take k, [], e'.parts.drop k, by rw [hleft, List.append_nil],
    by rw [List.append_nil, List.take_append_drop], hadded, hsame⟩

/-- What is left of a tag, in the new text. -/
def leftReading (e : Element) (plan : EditPlan) (file' : SourceFile) : List Reading :=
  (e.opening.children.filter (!plan.deletes ·.span)).map fun n =>
    ((Part.ofNode n).image plan).read file'

theorem map_partsLeft (e : Element) (plan : EditPlan) (file' : SourceFile) :
    (e.partsLeft plan).map (·.read file') = e.leftReading plan file' := by
  rw [partsLeft, List.map_map]
  rfl

/-- An element that was not changed has what is left and nothing else. -/
theorem Again.reading_eq (h : e.Again plan false e') (file' : SourceFile) :
    e'.reading file' = e.leftReading plan file' := by
  obtain ⟨front, back, added, hleft, hparts, -, hadded⟩ := h
  rw [reading, hparts, hadded rfl, List.nil_append, ← hleft, map_partsLeft]

/-- Attributes that were added do not give the tag a name. -/
theorem Again.tagName_eq (h : e.Again plan changed e') (file' : SourceFile) :
    e'.tagName file' = Reading.tag (e.leftReading plan file') := by
  obtain ⟨front, back, added, hleft, hparts, hadded, -⟩ := h
  have hnone : (added.map (·.read file')).find? (·.role == .name) = none := by
    refine List.find?_eq_none.mpr (List.forall_mem_map.mpr fun p hp => ?_)
    rw [Part.read, hadded p hp]
    exact Bool.false_ne_true
  rw [← tag_reading, ← map_partsLeft, hleft, reading, hparts, Reading.tag, Reading.tag]
  simp only [List.map_append, List.find?_append, hnone, Option.none_or]

/-- The tag's name is read in its place if it is left. -/
theorem tag_leftReading (file' : SourceFile) {n : Node} (hn : e.opening.child? .name = some n)
    (hstays : plan.deletes n.span = false) :
    Reading.tag (e.leftReading plan file') = file'.slice (plan.image n.span) := by
  have hrole : ((fun r : Reading => r.role == .name) ∘
      fun n => ((Part.ofNode n).image plan).read file') = fun n : Node => n.role == .name := by
    funext n
    rw [← Part.role_ofNode n]
    rfl
  have hfound := find?_filter_of_find? (q := fun d => !plan.deletes d.span) hn (by simp [hstays])
  have hname := name_of_role (Node.mem_children_of_child? hn).2
  rw [Reading.tag, leftReading, List.find?_map, hrole, hfound, Option.map_some, Option.bind_some,
    Part.read, Part.image, hname]
  rfl

end Element

/-! ### Conversions -/

/-- What a codemod finds in a file and makes a component of. -/
structure Conversion (file : SourceFile) (α : Type) where
  module : String
  name : String
  find : Element → Option α
  classes : α → ClassList
  keep : α → String → Bool
  props : Element → α → List String
  /-- Whether the name of a tag and its classes call for the component. -/
  calls : String → Option (List String) → Bool
  classList? : ∀ e a, find e = some a → e.classList? file = some (classes a)
  isSome_find : ∀ e, (find e).isSome =
    calls (e.tagName file) ((e.classList? file).map (·.classes))
  /-- A tag without a name calls for nothing. -/
  unnamed : ∀ cs, calls "" cs = false
  /-- The component calls for nothing. -/
  renamed : ∀ cs, calls name cs = false
  /-- The component has a name. -/
  named : name ≠ ""

namespace Conversion

variable {file file' : SourceFile} {α β : Type}

def edits (c : Conversion file α) (p : Element × α) : EditPlan :=
  (c.classes p.2).retain (c.keep p.2) :: p.1.rename c.name ++ p.1.addProps (c.props p.1 p.2)

def plan (c : Conversion file α) : EditPlan :=
  let found := (Element.all file).filterMap fun e => (c.find e).map (e, ·)
  if found.isEmpty then []
  else found.flatMap c.edits ++ NamedImport.ensure file c.module [c.name]

/-- The second file has the text that the plan makes of the first one, and the elements of the
first one: each has its parts, in a new place, and what was found may have new attributes. -/
structure Rereads (c : Conversion file α) (file' : SourceFile) : Prop where
  text : file'.text = c.plan.apply file.text
  only : ∀ e' ∈ Element.all file', ∃ e ∈ Element.all file, e.Again c.plan (c.find e).isSome e'

variable {c : Conversion file α} {e e' : Element}

theorem plan_eq_nil_iff : c.plan = [] ↔ ∀ e ∈ Element.all file, c.find e = none := by
  have hfound : (∀ e ∈ Element.all file, c.find e = none) ↔
      ((Element.all file).filterMap fun e => (c.find e).map (e, ·)) = [] := by
    rw [List.filterMap_eq_nil_iff]
    exact forall₂_congr fun e _ => Option.map_eq_none_iff.symm
  rw [hfound, plan]
  cases hlist : (Element.all file).filterMap fun e => (c.find e).map (e, ·) with
  | nil => exact iff_of_true rfl rfl
  | cons p ps => exact iff_of_false (by simp [edits]) (List.cons_ne_nil _ _)

theorem mem_plan (he : e ∈ Element.all file) {a : α} (ha : c.find e = some a) {ed : Edit}
    (hed : ed ∈ c.edits (e, a)) : ed ∈ c.plan := by
  have hmem : (e, a) ∈ (Element.all file).filterMap fun e => (c.find e).map (e, ·) :=
    List.mem_filterMap.mpr ⟨e, he, by rw [ha]; rfl⟩
  rw [plan, if_neg (by simpa using List.ne_nil_of_mem hmem)]
  exact List.mem_append_left _ (List.mem_flatMap.mpr ⟨(e, a), hmem, hed⟩)

section
variable (hf : file.WellFormed)
include hf

theorem home (e : Element) (a : α) (he : e.InFile file) (ha : c.find e = some a) :
    e.Home file (c.edits (e, a)) :=
  he.home_convert hf (ClassList.of_classList? hf he (c.classList? e a ha)) (c.keep a) c.name
    (c.props e a)

theorem spread_plan : c.plan.Spread file.text.toList := by
  rw [plan]
  split
  · exact EditPlan.spread_nil
  · exact Codemod.spread_found_import hf c.find c.edits (home hf) c.module [c.name]

/-- All edits are apart from what holds at an element that is not found. -/
theorem apart_of_holds (he : e ∈ Element.all file) (hnone : c.find e = none) {span : Span}
    (hspan : e.Holds file span) : ∀ ed ∈ c.plan, ed.span.Apart span := by
  intro ed hed
  rw [plan] at hed
  split at hed
  · cases hed
  · rcases List.mem_append.mp hed with hed | hed
    · refine Codemod.apart_of_holds_found hf he hspan c.find c.edits (home hf) (fun a ha => ?_)
        ed hed
      rw [hnone] at ha
      cases ha
    · exact Codemod.apart_of_holds_import hf he hspan c.module [c.name] ed hed

variable (htext : file'.text = c.plan.apply file.text)
include htext

/-- What is found has the new name in the new text. -/
theorem tagName_of_found (he : e ∈ Element.all file) (hfound : (c.find e).isSome)
    {changed : Bool} (h : e.Again c.plan changed e') : e'.tagName file' = c.name := by
  obtain ⟨a, ha⟩ := Option.isSome_iff_exists.mp hfound
  have htag : e.tagName file ≠ "" := by
    intro hempty
    rw [c.isSome_find, hempty, c.unnamed] at hfound
    cases hfound
  obtain ⟨n, hn⟩ : ∃ n, e.opening.child? .name = some n := by
    cases hname : e.opening.child? .name with
    | none => exact absurd (by rw [Element.tagName, hname]; rfl) htag
    | some n => exact ⟨n, rfl⟩
  have hne : n.start < n.stop := by
    refine Nat.lt_of_not_le fun hle => htag ?_
    rw [Element.tagName, hn]
    exact slice_of_le hle
  have hrename : (⟨n.span, c.name⟩ : Edit) ∈ c.plan := by
    refine mem_plan he ha (List.mem_append_left _ (List.mem_cons_of_mem _ ?_))
    exact List.mem_filterMap.mpr ⟨e.opening, List.mem_cons_self, by rw [hn]; rfl⟩
  have hspread := spread_plan (c := c) hf
  -- the only edit that reaches over the name is the one that replaces it
  have hstays : c.plan.deletes n.span = false := by
    rw [EditPlan.deletes, EditPlan.covers, Bool.and_eq_false_iff, List.any_eq_false]
    refine .inr fun ed hed => ?_
    obtain ⟨hed, hempty⟩ := List.mem_filter.mp hed
    rw [Bool.and_eq_true, decide_eq_true_eq, decide_eq_true_eq]
    rcases hspread.conflictFree.forall hed hrename with hapart | rfl
    · unfold Span.Apart at hapart
      dsimp only [Node.span] at hapart ⊢
      omega
    · exact absurd (by simpa using hempty) c.named
  have hread := hspread.slice_image_of_mem hrename hne
  rw [h.tagName_eq, Element.tag_leftReading file' hn hstays, SourceFile.slice, htext, hread]

/-- What is not found says what it said. -/
theorem says_of_not_found (he : e ∈ Element.all file) (hnone : c.find e = none)
    (h : e.Again c.plan false e') : e'.tagName file' = e.tagName file ∧
      (e'.classList? file').map (·.classes) = (e.classList? file).map (·.classes) := by
  have hin := Element.inFile_of_mem_all hf he
  have hchild := fun d hd => hin.child_untouched hf (spread_plan hf) htext (d := d) hd
    fun s hs _ => apart_of_holds hf he hnone hs
  have hsame : ∀ p : Reading → Bool,
      (∀ d : Node, p ((Part.ofNode d).read file) = true →
        d.role = .name ∨ Element.isClassAttribute file d) →
      (e.leftReading c.plan file').find? p = (e.reading file).find? p := by
    intro p hcounts
    rw [Element.reading_eq, Element.leftReading]
    refine Reading.find?_filter_map (fun d hd hp => ?_) fun d hd _ => by rw [(hchild d hd).1]
    rw [EditPlan.not_deletes ((hchild d hd).2 (hcounts d hp))]
    exact ⟨rfl, (hchild d hd).1⟩
  rw [← Element.tag_reading, ← Element.tag_reading, ← Element.classes?_reading,
    ← Element.classes?_reading, h.reading_eq, Reading.tag, Reading.tag, Reading.classes?,
    Reading.classes?, hsame, hsame]
  · exact ⟨rfl, rfl⟩
  · exact fun d hclass => .inr (by rw [← Element.isClass_read]; exact hclass)
  · exact fun d hname => .inl (by rw [← Part.role_ofNode]; exact beq_iff_eq.mp hname)

/-- What was found is renamed, and of the rest nothing is found that was not before. -/
theorem again_of_rereads {c' : Conversion file' β} (hcalls : c'.calls = c.calls)
    (he : e ∈ Element.all file) (h : e.Again c.plan (c.find e).isSome e') :
    if (c.find e).isSome then e'.tagName file' = c.name else c'.find e' = none := by
  split
  · rename_i hfound
    exact tagName_of_found hf htext he hfound h
  · rename_i hother
    have hnone := Option.not_isSome_iff_eq_none.mp hother
    rw [hnone] at h
    obtain ⟨htag, hclasses⟩ := says_of_not_found hf htext he hnone h
    rw [← Option.not_isSome_iff_eq_none, c'.isSome_find, hcalls, htag, hclasses, ← c.isSome_find]
    exact hother

/-- The conversion finds nothing in the new text. -/
theorem plan_reread_eq_nil {c' : Conversion file' β} (hcalls : c'.calls = c.calls)
    (only : ∀ e' ∈ Element.all file', ∃ e ∈ Element.all file,
      e.Again c.plan (c.find e).isSome e') : c'.plan = [] := by
  refine plan_eq_nil_iff.mpr fun e' he' => ?_
  obtain ⟨e, he, hagain⟩ := only e' he'
  have hleft := again_of_rereads hf htext hcalls he hagain
  split at hleft
  · rw [← Option.not_isSome_iff_eq_none, c'.isSome_find, hcalls, hleft, c.renamed]
    exact Bool.false_ne_true
  · exact hleft

end
end Conversion
end TokenLint
