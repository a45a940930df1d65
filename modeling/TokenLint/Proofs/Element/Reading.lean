import TokenLint.Proofs.Edit.Image
import TokenLint.Proofs.Element.Home

/-!
# What an opening tag says

Of a tag its name is looked at, and the names and the strings of its attributes. These parts have
places in the text and, at these places, a reading. An edited text has the tag again when the
parts that the edits leave stand at the images of their places.
-/
namespace TokenLint

open Source Text

/-- Where a child of a tag has what is looked at. -/
structure Part where
  role : Role
  /-- The name of the tag or of an attribute. -/
  name : Option Span
  /-- What the string of an attribute holds. -/
  string : Option Span
  deriving DecidableEq

def Part.ofNode (n : Node) : Part :=
  if n.role == .name then ⟨n.role, some n.span, none⟩
  else if n.kind == .jsxAttribute then
    ⟨n.role, n.children.head?.map (·.span),
      (n.children[1]?.filter (·.kind == .string)).map (·.content)⟩
  else ⟨n.role, none, none⟩

theorem Part.role_ofNode (n : Node) : (ofNode n).role = n.role := by
  unfold ofNode
  split
  · rfl
  · split <;> rfl

def Part.image (plan : EditPlan) (p : Part) : Part :=
  ⟨p.role, p.name.map plan.image, p.string.map plan.image⟩

@[ext]
structure Reading where
  role : Role
  name : Option String
  string : Option String

def Part.read (file : SourceFile) (p : Part) : Reading :=
  ⟨p.role, p.name.map file.slice, p.string.map file.slice⟩

namespace Reading

def isClass (r : Reading) : Bool :=
  r.role == .attribute && r.name.any Element.classAttributes.contains

def tag (rs : List Reading) : String := ((rs.find? (·.role == .name)).bind (·.name)).getD ""

/-- The classes of the first class attribute, if it is a string. -/
def classes? (rs : List Reading) : Option (List String) :=
  (rs.find? (·.isClass)).bind fun r => r.string.map words

/-- What is looked up among readings is found again where nothing that counts is dropped or
changed. -/
theorem find?_filter_map {p : Reading → Bool} {q : Node → Bool} {f g : Node → Reading}
    {as : List Node}
    (hsame : ∀ a ∈ as, p (f a) = true → q a = true ∧ g a = f a)
    (hnone : ∀ a ∈ as, q a = true → p (g a) = p (f a)) :
    ((as.filter q).map g).find? p = (as.map f).find? p := by
  induction as with
  | nil => rfl
  | cons a as ih =>
    obtain ⟨ha, has⟩ := List.forall_mem_cons.mp hsame
    obtain ⟨ha', has'⟩ := List.forall_mem_cons.mp hnone
    specialize ih has has'
    rw [List.map_cons, List.find?_cons]
    cases hp : p (f a) with
    | true =>
      obtain ⟨hq, hg⟩ := ha hp
      rw [List.filter_cons_of_pos hq, List.map_cons, List.find?_cons, hg, hp]
    | false =>
      cases hq : q a with
      | true =>
        rw [List.filter_cons_of_pos hq, List.map_cons, List.find?_cons, ha' hq, hp]
        exact ih
      | false =>
        rw [List.filter_cons_of_neg (by rw [hq]; decide)]
        exact ih

end Reading

namespace Element

variable {file : SourceFile} {e : Element}

def parts (e : Element) : List Part := e.opening.children.map .ofNode

/-- The parts of the tag that a plan leaves, where they are in the new text. -/
def partsAfter (e : Element) (plan : EditPlan) : List Part :=
  (e.opening.children.filter (!plan.covers ·.span)).map fun n => (Part.ofNode n).image plan

def reading (e : Element) (file : SourceFile) : List Reading := e.parts.map (·.read file)

/-- The classes of the next class attribute, which counts when the first one is gone. -/
def laterClasses? (e : Element) (file : SourceFile) : Option (List String) :=
  Reading.classes? (((e.reading file).dropWhile (!·.isClass)).drop 1)

theorem reading_eq (e : Element) (file : SourceFile) :
    e.reading file = e.opening.children.map fun d => (Part.ofNode d).read file := by
  rw [Element.reading, Element.parts, List.map_map]
  rfl

theorem reading_after {e e' : Element} {plan : EditPlan} (h : e'.parts = e.partsAfter plan)
    (file : SourceFile) : e'.reading file =
      (e.opening.children.filter (!plan.covers ·.span)).map fun d =>
        ((Part.ofNode d).image plan).read file := by
  rw [reading, h, partsAfter, List.map_map]
  rfl

theorem tag_reading (e : Element) (file : SourceFile) :
    Reading.tag (e.reading file) = e.tagName file := by
  have hrole : ((fun r : Reading => r.role == Role.name) ∘ Part.read file ∘ Part.ofNode) =
      fun n : Node => n.role == .name := by
    funext n
    rw [← Part.role_ofNode n]
    rfl
  rw [Reading.tag, reading, parts, List.map_map, List.find?_map, hrole, tagName, Node.child?]
  cases hname : e.opening.children.find? (·.role == .name) with
  | none => rfl
  | some n =>
    have hn := List.find?_some hname
    simp [Part.ofNode, hn, Part.read]
    rfl

theorem isClass_read (file : SourceFile) (n : Node) :
    ((Part.ofNode n).read file).isClass = isClassAttribute file n := by
  unfold Part.ofNode isClassAttribute attributeName?
  split
  · rename_i hrole
    rw [beq_iff_eq.mp hrole]
    rfl
  · split
    · simp only [Part.read, Reading.isClass, Option.map_map]
      rfl
    · rfl

/-- Of a class attribute the string is read, if there is one. -/
theorem string_of_isClass {n : Node} (h : isClassAttribute file n) :
    (Part.ofNode n).string = (n.children[1]?.filter (·.kind == .string)).map (·.content) := by
  obtain ⟨hrole, hkind⟩ := ClassList.kind_of_isClassAttribute h
  rw [Part.ofNode, hrole, hkind]
  rfl

/-- The name of a class attribute is not empty. -/
theorem name_of_isClass {n : Node} (h : isClassAttribute file n) :
    ∃ c, n.children.head? = some c ∧ (Part.ofNode n).name = some c.span ∧ c.start < c.stop := by
  obtain ⟨hrole, hkind⟩ := ClassList.kind_of_isClassAttribute h
  have hname : (Part.ofNode n).name = n.children.head?.map (·.span) := by
    rw [Part.ofNode, hrole, hkind]
    rfl
  rw [← isClass_read, Reading.isClass, Bool.and_eq_true, Option.any_eq_true] at h
  obtain ⟨-, text, htext, hclass⟩ := h
  obtain ⟨s, hs, rfl⟩ := Option.map_eq_some_iff.mp htext
  obtain ⟨c, hc, rfl⟩ := Option.map_eq_some_iff.mp (hname.symm.trans hs)
  refine ⟨c, hc, hs, Nat.lt_of_not_le fun hle => ?_⟩
  rw [SourceFile.slice, slice_of_le hle] at hclass
  exact absurd hclass (by decide)

theorem name_of_role {n : Node} (h : n.role = .name) : (Part.ofNode n).name = some n.span := by
  rw [Part.ofNode, h]
  rfl

theorem map_classHolder? (file : SourceFile) (before : Option Nat) (ns : List Node) :
    (classHolder? file before ns).map (·.1) = ns.find? (isClassAttribute file) := by
  induction ns generalizing before with
  | nil => rfl
  | cons n ns ih =>
    rw [classHolder?, List.find?_cons]
    cases hclass : isClassAttribute file n with
    | true => rfl
    | false => simpa using ih (some n.stop)

theorem classes?_reading (e : Element) (file : SourceFile) :
    Reading.classes? (e.reading file) = (e.classList? file).map (·.classes) := by
  have hclass : ((fun r : Reading => r.isClass) ∘ Part.read file ∘ Part.ofNode) =
      isClassAttribute file := funext fun n => isClass_read file n
  rw [Reading.classes?, reading, parts, List.map_map, List.find?_map, hclass,
    ← map_classHolder? file none, classList?]
  cases hholder : classHolder? file none e.opening.children with
  | none => rfl
  | some found =>
    obtain ⟨holder, before⟩ := found
    have hfound : e.opening.children.find? (isClassAttribute file) = some holder := by
      rw [← map_classHolder? file none, hholder]
      rfl
    have hstring := string_of_isClass (List.find?_some hfound)
    simp only [Option.map_some, Option.bind_some, Function.comp, Part.read, hstring,
      Option.bind_eq_bind]
    cases holder.children[1]? with
    | none => rfl
    | some value =>
      by_cases hk : value.kind = .string
      · simp [Option.filter, hk]
      · simp [Option.filter, hk]

/-! ### Places of the parts -/

section
variable (he : e.InFile file) (hf : file.WellFormed) {d : Node} (hd : d ∈ e.opening.children)
include he hf hd

/-- A range in a child of an attribute that has no elements. -/
theorem InFile.holds_attribute (hk : d.kind = .jsxAttribute) {c : Node} (hc : c ∈ d.children)
    (hno : c.NoElement) {s : Span} (hfit : IsRange file.text.toList s) (hs : s.Within c.span) :
    e.Holds file s ∧ s.Within d.span := by
  have hopen := he.mem_child he.opening
  have hroot := Node.mem_preorder_child hopen hd
  have hdn := Node.nests_of_mem hf.nests hroot
  have hwithin := hs.trans ((hf.nests d hroot).child_within hc)
  refine ⟨he.holds_of_tag hf List.mem_cons_self hfit ?_ ?_, hwithin⟩
  · exact hwithin.trans ((hf.nests e.opening hopen).child_within hd)
  · refine Node.clear_of_child (Node.nests_of_mem hf.nests hopen) hd ?_ hwithin ?_
    · rw [hk]
      decide
    · exact (Node.clear_child hdn hc hno).mono hs

theorem InFile.holds_name {s : Span} (h : (Part.ofNode d).name = some s) :
    e.Holds file s ∧ s.Within d.span := by
  have hopen := he.mem_child he.opening
  have hroot := Node.mem_preorder_child hopen hd
  unfold Part.ofNode at h
  split at h
  · rename_i hrole
    obtain rfl := Option.some.inj h
    have hno :=
      (hf.shaped e.opening hopen).tagName (.inl he.openingKind) d hd (by simpa using hrole)
    refine ⟨he.holds_of_tag hf List.mem_cons_self ?_ ?_ ?_, Span.Within.refl _⟩
    · exact (hf.aligned d hroot).isRange (hf.nests d hroot)
    · exact (hf.nests e.opening hopen).child_within hd
    · exact Node.clear_child (Node.nests_of_mem hf.nests hopen) hd hno
  · split at h
    · rename_i hk
      have hkind : d.kind = .jsxAttribute := by simpa using hk
      obtain ⟨c, hc, rfl⟩ := Option.map_eq_some_iff.mp h
      have hmem := List.mem_of_head? hc
      have hcroot := Node.mem_preorder_child hroot hmem
      exact he.holds_attribute hf hd hkind hmem ((hf.shaped d hroot).attributeName hkind c hc)
        ((hf.aligned c hcroot).isRange (hf.nests c hcroot)) (Span.Within.refl _)
    · cases h

theorem InFile.holds_string {s : Span} (h : (Part.ofNode d).string = some s) :
    e.Holds file s ∧ s.Within d.span := by
  have hroot := Node.mem_preorder_child (he.mem_child he.opening) hd
  unfold Part.ofNode at h
  split at h
  · cases h
  · split at h
    · rename_i hk
      have hkind : d.kind = .jsxAttribute := by simpa using hk
      obtain ⟨value, hvalue, rfl⟩ := Option.map_eq_some_iff.mp h
      obtain ⟨hget, hstring⟩ := Option.filter_eq_some_iff.mp hvalue
      have hvk : value.kind = .string := by simpa using hstring
      have hmem := List.mem_of_getElem? hget
      have hvroot := Node.mem_preorder_child hroot hmem
      have hno : value.NoElement := fun m hm =>
        ClassList.noElement_of_string hf hroot hkind hget hvk m
          (Node.mem_preorder_trans (Node.mem_preorder_of_mem_children hmem) hm)
      exact he.holds_attribute hf hd hkind hmem hno
        ((hf.aligned value hvroot).content_isRange (.inl hvk))
        (Node.content_within (hf.nests value hvroot))
    · cases h

end

/-- The class attribute among the children of the tag. -/
theorem exists_holder {c : ClassList} (h : e.classList? file = some c) :
    ∃ pre post, e.opening.children = pre ++ c.holder :: post ∧ isClassAttribute file c.holder ∧
      (∀ n ∈ pre, isClassAttribute file n = false) ∧ c.holder.children[1]? = some c.value ∧
      c.value.kind = .string ∧ c.classes = words (file.slice c.value.content) := by
  unfold classList? at h
  obtain ⟨⟨holder, before⟩, hholder, h⟩ := Option.bind_eq_some_iff.mp h
  obtain ⟨value, hvalue, h⟩ := Option.bind_eq_some_iff.mp h
  split at h
  · rename_i hk
    obtain rfl := Option.some.inj h
    have hfind : e.opening.children.find? (isClassAttribute file) = some holder := by
      rw [← map_classHolder? file none, hholder]
      rfl
    obtain ⟨hclass, pre, post, hcs, hpre⟩ := List.find?_eq_some_iff_append.mp hfind
    exact ⟨pre, post, hcs, hclass, fun n hn => by simpa using hpre n hn, hvalue, by simpa using hk,
      rfl⟩
  · cases h

end Element

/-! ### Parts in an edited text -/

section
variable {file file' : SourceFile} {plan : EditPlan} {p : Part}

theorem Part.read_image_name (hplan : plan.Spread file.text.toList)
    (htext : file'.text = plan.apply file.text)
    (h : ∀ s, p.name = some s → IsRange file.text.toList s ∧ ∀ ed ∈ plan, ed.span.Apart s) :
    ((p.image plan).read file').name = (p.read file).name := by
  simp only [image, read, Option.map_map]
  refine Option.map_congr fun s hs => ?_
  obtain ⟨hfit, hapart⟩ := h s hs
  rw [Function.comp, SourceFile.slice, htext]
  exact hplan.slice_image_of_apart hfit hapart

/-- A part that no edit touches is read in the new text as it was. -/
theorem Part.read_image (hplan : plan.Spread file.text.toList)
    (htext : file'.text = plan.apply file.text)
    (h : ∀ s, p.name = some s ∨ p.string = some s →
      IsRange file.text.toList s ∧ ∀ ed ∈ plan, ed.span.Apart s) :
    (p.image plan).read file' = p.read file := by
  have hname := read_image_name hplan htext fun s hs => h s (.inl hs)
  have hstring : ((p.image plan).read file').string = (p.read file).string := by
    simp only [image, read, Option.map_map]
    refine Option.map_congr fun s hs => ?_
    obtain ⟨hfit, hapart⟩ := h s (.inr hs)
    rw [Function.comp, SourceFile.slice, htext]
    exact hplan.slice_image_of_apart hfit hapart
  exact Reading.ext rfl hname hstring

/-- A child of a tag that no edit touches says the same in the new text, and it is not covered if
it has the tag's name or classes. -/
theorem Element.InFile.child_untouched {e : Element} (he : e.InFile file) (hf : file.WellFormed)
    (hplan : plan.Spread file.text.toList) (htext : file'.text = plan.apply file.text) {d : Node}
    (hd : d ∈ e.opening.children)
    (hapart : ∀ s, e.Holds file s → s.Within d.span → ∀ ed ∈ plan, ed.span.Apart s) :
    ((Part.ofNode d).image plan).read file' = (Part.ofNode d).read file ∧
      (d.role = .name ∨ isClassAttribute file d → plan.covers d.span = false) := by
  constructor
  · refine Part.read_image hplan htext fun s hs => ?_
    obtain ⟨hholds, hwithin⟩ : e.Holds file s ∧ s.Within d.span := hs.elim
      (fun hs => he.holds_name hf hd hs) fun hs => he.holds_string hf hd hs
    exact ⟨hholds.fits, hapart s hholds hwithin⟩
  · intro hcounts
    obtain ⟨s, hs, hne⟩ : ∃ s, (Part.ofNode d).name = some s ∧
        (d.span.start < d.span.stop → s.start < s.stop) := by
      rcases hcounts with hrole | hclass
      · exact ⟨d.span, name_of_role hrole, id⟩
      · obtain ⟨c, -, hs, hne⟩ := name_of_isClass hclass
        exact ⟨c.span, hs, fun _ => hne⟩
    obtain ⟨hholds, hwithin⟩ := he.holds_name hf hd hs
    exact EditPlan.not_covers hwithin hne (hapart s hholds hwithin)

end
end TokenLint
