import TokenLint.Proofs.Element.Tag

/-!
# The edit of an element's classes

The class attribute of an element is edited within its slot, which reaches from the end of the
child before it to its own end. The slot holds no element, and no other child of the tag reaches
into it.
-/
namespace TokenLint

open Source Text

variable {file : SourceFile} {e : Element}

namespace Element

/-- The class attribute, and where the child before it ends. -/
theorem classHolder?_eq_some {before : Option Nat} {ns : List Node} {holder : Node} {start : Nat}
    (h : classHolder? file before ns = some (holder, start)) :
    ∃ pre post, ns = pre ++ holder :: post ∧ isClassAttribute file holder ∧
      start = ((pre.getLast?.map Node.stop).or before).getD holder.start := by
  induction ns generalizing before with
  | nil => cases h
  | cons n ns ih =>
    rw [classHolder?] at h
    split at h
    · rename_i hclass
      obtain ⟨rfl, rfl⟩ := Prod.mk.inj (Option.some.inj h)
      exact ⟨[], ns, rfl, hclass, by simp⟩
    · obtain ⟨pre, post, rfl, hclass, rfl⟩ := ih h
      refine ⟨n :: pre, post, rfl, hclass, ?_⟩
      rw [List.getLast?_cons]
      cases pre.getLast? <;> simp

end Element

namespace ClassList

variable {c : ClassList}

/-- From the end of what stands before the class attribute to the attribute's end. -/
def slot (c : ClassList) : Span := ⟨c.before, c.holder.stop⟩

/-- The classes of an element's opening tag, which are one plain string. -/
structure Of (file : SourceFile) (e : Element) (c : ClassList) : Prop where
  holder : c.holder ∈ e.opening.children
  role : c.holder.role = .attribute
  value : c.value ∈ c.holder.children
  valueKind : c.value.kind = .string
  noElement : c.holder.NoElement
  before_le : c.before ≤ c.holder.start
  before : c.before = c.holder.start ∨ ∃ p ∈ e.opening.children, c.before = p.stop
  apart : ∀ d ∈ e.opening.children, d = c.holder ∨ c.slot.Apart d.span

/-- An attribute whose value is a string has nothing but a name beside it. -/
theorem noElement_of_string (hf : file.WellFormed) {holder value : Node}
    (hroot : holder ∈ file.root.preorder) (hk : holder.kind = .jsxAttribute)
    (hv : holder.children[1]? = some value) (hvk : value.kind = .string) : holder.NoElement := by
  have hshape := hf.shaped holder hroot
  obtain ⟨name, second, hcs⟩ := List.length_eq_two.mp
    (hshape.attributeValue hk (by rw [hv, Option.map_some, hvk]))
  have hsecond : second = value := by rw [hcs] at hv; exact Option.some.inj hv
  subst hsecond
  intro m hm
  rcases Node.mem_preorder.mp hm with rfl | hinside
  · rw [hk]
    decide
  · obtain ⟨d, hd, hmd⟩ := Node.mem_inside.mp hinside
    have hdroot := Node.mem_preorder_child hroot hd
    rw [hcs] at hd
    rcases List.mem_cons.mp hd with rfl | hd
    · exact hshape.attributeName hk d (by rw [hcs]; rfl) m hmd
    · obtain rfl := List.mem_singleton.mp hd
      have hleaf := (hf.shaped d hdroot).leaf (by rw [hvk]; decide)
      rcases Node.mem_preorder.mp hmd with rfl | hbelow
      · rw [hvk]
        decide
      · rw [Node.inside_of_leaf hleaf] at hbelow
        cases hbelow

/-- A class attribute is an attribute with a name. -/
theorem kind_of_isClassAttribute {n : Node} (h : Element.isClassAttribute file n) :
    n.role = .attribute ∧ n.kind = .jsxAttribute := by
  unfold Element.isClassAttribute at h
  obtain ⟨hrole, hname⟩ := Bool.and_eq_true_iff.mp h
  refine ⟨by simpa using hrole, ?_⟩
  unfold Element.attributeName? at hname
  split at hname
  · rename_i hk
    simpa using hk
  · cases hname

/-- The slot reaches back to the child before the attribute, and to none further. -/
theorem slot_apart {n holder : Node} (hn : ∀ m ∈ n.preorder, m.Nests) {pre post : List Node}
    (hsplit : n.children = pre ++ holder :: post) {before : Nat}
    (hbefore : before = (pre.getLast?.map Node.stop).getD holder.start) :
    (before = holder.start ∨ ∃ p ∈ n.children, before = p.stop) ∧ before ≤ holder.start ∧
      ∀ d ∈ n.children, d = holder ∨ Span.Apart ⟨before, holder.stop⟩ d.span := by
  have order := (hn n (Node.mem_preorder_self n)).apart
  rw [hsplit] at order
  obtain ⟨hpre, hrest, hcross⟩ := List.pairwise_append.mp order
  have hpost := (List.pairwise_cons.mp hrest).1
  cases hlast : pre.getLast? with
  | none =>
    obtain rfl := List.getLast?_eq_none_iff.mp hlast
    subst hbefore
    refine ⟨Or.inl rfl, Nat.le_refl _, fun d hd => ?_⟩
    rw [hsplit] at hd
    rcases List.mem_cons.mp hd with rfl | hd
    · exact Or.inl rfl
    · exact Or.inr (Or.inl (hpost d hd))
  | some p =>
    obtain ⟨init, rfl⟩ := List.getLast?_eq_some_iff.mp hlast
    rw [hlast] at hbefore
    have hp : p ∈ n.children := by rw [hsplit]; simp
    have hple := (hn p (Node.mem_preorder_of_mem_children hp)).ordered
    subst hbefore
    refine ⟨Or.inr ⟨p, hp, rfl⟩, hcross p (by simp) holder List.mem_cons_self, fun d hd => ?_⟩
    rw [hsplit] at hd
    rcases List.mem_append.mp hd with hd | hd
    · rcases List.mem_append.mp hd with hd | hd
      · have hdp := (List.pairwise_append.mp hpre).2.2 d hd p List.mem_cons_self
        exact Or.inr (Or.inr (Nat.le_trans hdp hple))
      · obtain rfl := List.mem_singleton.mp hd
        exact Or.inr (Or.inr (Nat.le_refl _))
    · rcases List.mem_cons.mp hd with rfl | hd
      · exact Or.inl rfl
      · exact Or.inr (Or.inl (hpost d hd))

theorem of_classList? (hf : file.WellFormed) (he : e.InFile file)
    (h : e.classList? file = some c) : c.Of file e := by
  unfold Element.classList? at h
  obtain ⟨⟨holder, before⟩, hholder, h⟩ := Option.bind_eq_some_iff.mp h
  obtain ⟨value, hvalue, h⟩ := Option.bind_eq_some_iff.mp h
  split at h
  · rename_i hk
    obtain rfl := Option.some.inj h
    have hvk : value.kind = .string := by simpa using hk
    obtain ⟨pre, post, hsplit, hclass, hbefore⟩ := Element.classHolder?_eq_some hholder
    rw [Option.or_none] at hbefore
    have hmem : holder ∈ e.opening.children := by rw [hsplit]; simp
    have hopen := he.mem_child he.opening
    have hroot := Node.mem_preorder_child hopen hmem
    obtain ⟨hrole, hkind⟩ := kind_of_isClassAttribute hclass
    obtain ⟨hplace, hle, hapart⟩ :=
      slot_apart (Node.nests_of_mem hf.nests hopen) hsplit hbefore
    exact {
      holder := hmem
      role := hrole
      value := List.mem_of_getElem? hvalue
      valueKind := hvk
      noElement := noElement_of_string hf hroot hkind hvalue hvk
      before_le := hle
      before := hplace
      apart := hapart }
  · cases h

theorem content_within_slot (hc : c.Of file e) (hf : file.WellFormed) (he : e.InFile file) :
    c.value.content.Within c.slot := by
  have hholder := Node.mem_preorder_child (he.mem_child he.opening) hc.holder
  have hcontent := Node.content_within
    (hf.nests c.value (Node.mem_preorder_child hholder hc.value))
  have hinner := (hf.nests c.holder hholder).child_within hc.value
  exact (hcontent.trans hinner).trans ⟨hc.before_le, Nat.le_refl _⟩

/-- The classes are edited within their slot. -/
theorem retain_within (hc : c.Of file e) (hf : file.WellFormed) (he : e.InFile file)
    (keep : String → Bool) : (c.retain keep).span.Within c.slot := by
  unfold retain
  split
  · exact Span.Within.refl _
  · exact content_within_slot hc hf he

theorem slot_within (hc : c.Of file e) (hf : file.WellFormed) (he : e.InFile file) :
    c.slot.Within e.opening.span := by
  have hopen := he.mem_child he.opening
  have hn := hf.nests e.opening hopen
  have hholder := hn.child_within hc.holder
  refine ⟨?_, hholder.2⟩
  rcases hc.before with hb | ⟨p, hp, hb⟩
  · rw [slot, hb]
    exact hholder.1
  · have hproot := Node.mem_preorder_child hopen hp
    have hple := (hf.nests p hproot).ordered
    rw [slot, hb]
    exact Nat.le_trans (hn.child_within hp).1 hple

/-- No element below the opening tag reaches into the slot. -/
theorem slot_clear (hc : c.Of file e) (hf : file.WellFormed) (he : e.InFile file) :
    e.opening.Clear c.slot := by
  have hn := Node.nests_of_mem hf.nests (he.mem_child he.opening)
  intro m hm hmk
  obtain ⟨d, hd, hmd⟩ := Node.mem_inside.mp hm
  have hdn := Node.nests_of_mem hn (Node.mem_preorder_of_mem_children hd)
  rcases hc.apart d hd with rfl | hapart
  · exact absurd hmk (hc.noElement m hmd)
  · exact hapart.mono (Span.Within.refl _) (Node.within_of_mem_preorder hdn hmd)

theorem retain_fits (hc : c.Of file e) (hf : file.WellFormed) (he : e.InFile file)
    (keep : String → Bool) : IsRange file.text.toList (c.retain keep).span := by
  have hopen := he.mem_child he.opening
  have hroot : ∀ p ∈ e.opening.children, p ∈ file.root.preorder := fun p hp =>
    Node.mem_preorder_child hopen hp
  have hholder := hroot c.holder hc.holder
  unfold retain
  split
  · have hle := (hf.nests c.holder hholder).ordered
    refine ⟨Nat.le_trans hc.before_le hle, ?_, (hf.aligned c.holder hholder).stop⟩
    rcases hc.before with hb | ⟨p, hp, hb⟩
    · rw [Edit.delete, hb]
      exact (hf.aligned c.holder hholder).start
    · rw [Edit.delete, hb]
      exact (hf.aligned p (hroot p hp)).stop
  · have hvalue := Node.mem_preorder_child hholder hc.value
    exact (hf.aligned c.value hvalue).content_isRange (Or.inl hc.valueKind)

theorem holds_retain (hc : c.Of file e) (hf : file.WellFormed) (he : e.InFile file)
    (keep : String → Bool) : e.Holds file (c.retain keep).span := by
  have hwithin := retain_within hc hf he keep
  refine he.holds_of_tag hf List.mem_cons_self (retain_fits hc hf he keep) ?_ ?_
  · exact hwithin.trans (slot_within hc hf he)
  · exact (slot_clear hc hf he).mono hwithin

/-- The slot holds no other child of the opening tag, and nothing of the closing tag. -/
theorem slot_apart_rename (hc : c.Of file e) (hf : file.WellFormed) (he : e.InFile file)
    {name : String} : ∀ ed ∈ e.rename name, c.slot.Apart ed.span := by
  intro ed hed
  obtain ⟨tag, htag, n, hn, hrole, hspan⟩ := Element.mem_rename hed
  have htagroot := he.mem_child (he.tag htag).1
  rw [hspan]
  rcases List.mem_cons.mp htag with rfl | hclosing
  · rcases hc.apart n hn with rfl | hapart
    · rw [hc.role] at hrole
      cases hrole
    · exact hapart
  · have htags := (List.pairwise_cons.mp (he.tags_apart hf)).1 tag hclosing
    exact htags.mono (slot_within hc hf he) ((hf.nests tag htagroot).child_within hn)

theorem slot_apart_addProps (hc : c.Of file e) (hf : file.WellFormed) (he : e.InFile file)
    {props : List String} : ∀ ed ∈ e.addProps props, c.slot.Apart ed.span := by
  intro ed hed
  obtain ⟨anchor, hanchor, hspan⟩ := Element.mem_addProps hed
  have hroot := Node.mem_preorder_child (he.mem_child he.opening) hanchor
  have hle := (hf.nests anchor hroot).ordered
  rw [hspan]
  rcases hc.apart anchor hanchor with rfl | hapart
  · exact Or.inl (Nat.le_refl _)
  · unfold Span.Apart Node.span at *
    dsimp only at *
    omega

end ClassList

end TokenLint
