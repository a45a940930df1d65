import TokenLint.Element
import TokenLint.Proofs.Source.Clear

/-!
# Edits at the tags of an element

Names and added attributes stand in the tags of an element. Their edits are apart from each other
and clear of the elements below it, those in its attributes included.
-/
namespace TokenLint

open Source Text

variable {file : SourceFile} {e : Element}

namespace Element

/-- An element of the file's tree whose tags are where the grammar puts them. -/
structure InFile (file : SourceFile) (e : Element) : Prop where
  node : e.node ∈ file.root.preorder
  kind : e.node.kind = .jsxElement
  opening : e.opening ∈ e.node.children
  openingKind : e.opening.kind = .jsxOpening
  closing : ∀ c ∈ e.closing.toList, c ∈ e.node.children ∧ c.kind = .jsxClosing

theorem inFile_of_ofNode? (hf : file.WellFormed) {n : Node} (hn : n ∈ file.root.preorder)
    (h : ofNode? n = some e) : e.node = n ∧ InFile file e := by
  unfold ofNode? at h
  split at h
  · rename_i hk
    have hkind : n.kind = .jsxElement := by simpa using hk
    obtain ⟨opening, ho, rfl⟩ := Option.map_eq_some_iff.mp h
    have htags := (hf.shaped n hn).tags hkind
    obtain ⟨hmem, hrole⟩ := Node.mem_children_of_child? ho
    refine ⟨rfl, hn, hkind, hmem, (htags opening hmem).1 hrole, fun c hc => ?_⟩
    obtain ⟨hmem', hrole'⟩ := Node.mem_children_of_child? (Option.mem_toList.mp hc)
    exact ⟨hmem', (htags c hmem').2 hrole'⟩
  · cases h

/-- A range of the text within an element and clear of the elements below it. -/
structure Holds (file : SourceFile) (e : Element) (span : Span) : Prop where
  fits : IsRange file.text.toList span
  within : span.Within e.node.span
  clear : e.node.Clear span

theorem InFile.nests (he : e.InFile file) (hf : file.WellFormed) :
    ∀ m ∈ e.node.preorder, m.Nests :=
  Node.nests_of_mem hf.nests he.node

theorem InFile.mem_child (he : e.InFile file) {c : Node} (hc : c ∈ e.node.children) :
    c ∈ file.root.preorder :=
  Node.mem_preorder_child he.node hc

/-- The tags of an element are children of it. -/
theorem InFile.tag (he : e.InFile file) {tag : Node} (htag : tag ∈ e.opening :: e.closing.toList) :
    tag ∈ e.node.children ∧ (tag.kind = .jsxOpening ∨ tag.kind = .jsxClosing) := by
  rcases List.mem_cons.mp htag with rfl | htag
  · exact ⟨he.opening, Or.inl he.openingKind⟩
  · exact (he.closing tag htag).imp_right Or.inr

theorem InFile.tags_apart (he : e.InFile file) (hf : file.WellFormed) :
    (e.opening :: e.closing.toList).Pairwise fun a b => a.span.Apart b.span := by
  refine List.pairwise_cons.mpr ⟨fun c hc => ?_, by cases e.closing <;> simp⟩
  obtain ⟨hmem, hkind⟩ := he.closing c hc
  have hroot := he.nests hf e.node (Node.mem_preorder_self e.node)
  rcases hroot.eq_or_apart he.opening hmem with heq | hapart
  · have hk := he.openingKind
    rw [heq, hkind] at hk
    cases hk
  · exact hapart

/-- What is clear in a tag is clear at the element. -/
theorem InFile.holds_of_tag (he : e.InFile file) (hf : file.WellFormed) {tag : Node}
    (htag : tag ∈ e.opening :: e.closing.toList) {a : Span} (hfit : IsRange file.text.toList a)
    (hwithin : a.Within tag.span) (hclear : tag.Clear a) : e.Holds file a := by
  obtain ⟨hmem, hkind⟩ := he.tag htag
  have hn := he.nests hf
  have hroot := hn e.node (Node.mem_preorder_self e.node)
  refine ⟨hfit, hwithin.trans (hroot.child_within hmem), ?_⟩
  refine Node.clear_of_child hn hmem ?_ hwithin hclear
  rcases hkind with hk | hk <;> rw [hk] <;> decide

/-- A renaming edit replaces the name of a tag. -/
theorem mem_rename {name : String} {ed : Edit} (h : ed ∈ e.rename name) :
    ∃ tag ∈ e.opening :: e.closing.toList, ∃ n ∈ tag.children,
      n.role = .name ∧ ed.span = n.span := by
  obtain ⟨tag, htag, hed⟩ := List.mem_filterMap.mp h
  obtain ⟨n, hn, rfl⟩ := Option.map_eq_some_iff.mp hed
  obtain ⟨hmem, hrole⟩ := Node.mem_children_of_child? hn
  exact ⟨tag, htag, n, hmem, hrole, rfl⟩

theorem InFile.holds_rename (he : e.InFile file) (hf : file.WellFormed) {name : String} :
    ∀ ed ∈ e.rename name, e.Holds file ed.span := by
  intro ed hed
  obtain ⟨tag, htag, n, hn, hrole, hspan⟩ := mem_rename hed
  obtain ⟨htagmem, hkind⟩ := he.tag htag
  have htagroot := he.mem_child htagmem
  have hnroot := Node.mem_preorder_child htagroot hn
  rw [hspan]
  refine he.holds_of_tag hf htag ?_ ?_ ?_
  · exact (hf.aligned n hnroot).isRange (hf.nests n hnroot)
  · exact (hf.nests tag htagroot).child_within hn
  · have hno := (hf.shaped tag htagroot).tagName hkind n hn hrole
    exact Node.clear_child (Node.nests_of_mem hf.nests htagroot) hn hno

theorem InFile.rename_apart (he : e.InFile file) (hf : file.WellFormed) (name : String) :
    (e.rename name).Pairwise fun a b => a.span.Apart b.span := by
  refine List.pairwise_filterMap.mpr ((he.tags_apart hf).imp_of_mem ?_)
  intro t u ht hu htu a ha b hb
  obtain ⟨n, hn, rfl⟩ := Option.map_eq_some_iff.mp ha
  obtain ⟨m, hm, rfl⟩ := Option.map_eq_some_iff.mp hb
  have htn := hf.nests t (he.mem_child (he.tag ht).1)
  have hum := hf.nests u (he.mem_child (he.tag hu).1)
  exact htu.mono (htn.child_within (Node.mem_children_of_child? hn).1)
    (hum.child_within (Node.mem_children_of_child? hm).1)

/-- Attributes are added behind a child of the opening tag. -/
theorem mem_addProps {props : List String} {ed : Edit} (h : ed ∈ e.addProps props) :
    ∃ anchor ∈ e.opening.children, ed.span = ⟨anchor.stop, anchor.stop⟩ := by
  unfold addProps at h
  split at h
  · cases h
  · split at h
    · cases h
    · rename_i anchor hanchor
      refine ⟨anchor, ?_, by rw [List.mem_singleton.mp h]; rfl⟩
      rcases Option.or_eq_some_iff.mp hanchor with hlast | ⟨-, hname⟩
      · exact (List.mem_filter.mp (List.mem_of_getLast? hlast)).1
      · exact (Node.mem_children_of_child? hname).1

theorem InFile.holds_addProps (he : e.InFile file) (hf : file.WellFormed) {props : List String} :
    ∀ ed ∈ e.addProps props, e.Holds file ed.span := by
  intro ed hed
  obtain ⟨anchor, hanchor, hspan⟩ := mem_addProps hed
  have hopen := he.mem_child he.opening
  have hroot := Node.mem_preorder_child hopen hanchor
  have hwithin := (hf.nests e.opening hopen).child_within hanchor
  rw [hspan]
  refine he.holds_of_tag hf List.mem_cons_self (hf.aligned anchor hroot).stop.isRange ?_ ?_
  · exact (hf.nests anchor hroot).stop_within.trans hwithin
  · exact Node.clear_child_stop (Node.nests_of_mem hf.nests hopen) hanchor

theorem InFile.rename_apart_addProps (he : e.InFile file) (hf : file.WellFormed)
    {name : String} {props : List String} :
    ∀ a ∈ e.rename name, ∀ b ∈ e.addProps props, a.span.Apart b.span := by
  intro a ha b hb
  obtain ⟨tag, htag, n, hn, -, hspan⟩ := mem_rename ha
  obtain ⟨anchor, hanchor, hspan'⟩ := mem_addProps hb
  have hopen := he.mem_child he.opening
  have hnest := hf.nests e.opening hopen
  have hanchorn := hf.nests anchor (Node.mem_preorder_child hopen hanchor)
  rw [hspan, hspan']
  rcases List.mem_cons.mp htag with rfl | hclosing
  · exact (hnest.stop_apart hanchor hn hanchorn.ordered).symm
  · have htags := (List.pairwise_cons.mp (he.tags_apart hf)).1 tag hclosing
    have htagroot := he.mem_child (he.tag htag).1
    exact htags.symm.mono ((hf.nests tag htagroot).child_within hn)
      (hanchorn.stop_within.trans (hnest.child_within hanchor))

theorem addProps_apart (e : Element) (props : List String) :
    (e.addProps props).Pairwise fun a b => a.span.Apart b.span := by
  unfold addProps
  split
  · exact .nil
  · split
    · exact .nil
    · exact List.pairwise_singleton _ _

end Element
end TokenLint
