import TokenLint.Proofs.Edit.Spread
import TokenLint.Proofs.Element.ClassList

/-!
# The plans of all elements together

The edits of an element stay in its tags or at its ends. They are apart from each other and clear
of the elements below it, so the edits of all elements of a file are a spread plan.
-/
namespace TokenLint

open Source Text EditPlan

variable {file : SourceFile} {e : Element}

/-- Edits at an element that do not get in each other's way. -/
structure Element.Home (file : SourceFile) (e : Element) (plan : EditPlan) : Prop where
  holds : ∀ ed ∈ plan, e.Holds file ed.span
  apart : plan.Pairwise fun a b => a.span.Apart b.span

/-- The edits that turn an element into a component: fewer classes, another name, attributes. -/
theorem Element.InFile.home_convert (he : e.InFile file) (hf : file.WellFormed) {c : ClassList}
    (hc : c.Of file e) (keep : String → Bool) (name : String) (props : List String) :
    e.Home file (c.retain keep :: e.rename name ++ e.addProps props) := by
  have hwithin := ClassList.retain_within hc hf he keep
  constructor
  · intro ed hed
    rcases List.mem_append.mp hed with h | h
    · rcases List.mem_cons.mp h with rfl | h
      · exact ClassList.holds_retain hc hf he keep
      · exact he.holds_rename hf ed h
    · exact he.holds_addProps hf ed h
  · refine List.pairwise_append.mpr
      ⟨List.pairwise_cons.mpr ⟨fun a ha => ?_, he.rename_apart hf name⟩, ?_, fun a ha b hb => ?_⟩
    · exact (ClassList.slot_apart_rename hc hf he a ha).mono hwithin (Span.Within.refl _)
    · exact e.addProps_apart props
    · rcases List.mem_cons.mp ha with rfl | ha
      · exact (ClassList.slot_apart_addProps hc hf he b hb).mono hwithin (Span.Within.refl _)
      · exact he.rename_apart_addProps hf a ha b hb

namespace Element

/-- Of two elements the first ends before the second begins, or the second is below the first. -/
theorem pairwise_all (hf : file.WellFormed) : (all file).Pairwise fun a b =>
    a.node.stop ≤ b.node.start ∨ b.node ∈ a.node.inside := by
  have hnodes : file.root.descendants.Pairwise fun m n => m.stop ≤ n.start ∨ n ∈ m.inside := by
    refine List.pairwise_map.mpr ((Node.pairwise_visits hf.nests).imp fun h => ?_)
    exact h.imp_right Visit.node_mem_inside
  refine List.pairwise_filterMap.mpr (hnodes.imp_of_mem fun hm hn hmn a ha b hb => ?_)
  rw [(inFile_of_ofNode? hf (Node.mem_descendants.mp hm) ha).1,
    (inFile_of_ofNode? hf (Node.mem_descendants.mp hn) hb).1]
  exact hmn

/-- Two elements stand one behind the other, or one in the other. -/
theorem order_of_mem_all (hf : file.WellFormed) {a b : Element} (ha : a ∈ all file)
    (hb : b ∈ all file) (hne : a ≠ b) :
    a.node.stop ≤ b.node.start ∨ b.node ∈ a.node.inside ∨
      b.node.stop ≤ a.node.start ∨ a.node ∈ b.node.inside := by
  have hsymm : Std.Symm fun a b : Element =>
      (a.node.stop ≤ b.node.start ∨ b.node ∈ a.node.inside) ∨
        b.node.stop ≤ a.node.start ∨ a.node ∈ b.node.inside := ⟨fun _ _ h => h.symm⟩
  have hpair := (pairwise_all hf).imp (S := fun a b : Element =>
      (a.node.stop ≤ b.node.start ∨ b.node ∈ a.node.inside) ∨
        b.node.stop ≤ a.node.start ∨ a.node ∈ b.node.inside) fun h => .inl h
  simpa only [or_assoc] using List.Pairwise.forall hpair ha hb hne

theorem inFile_of_mem_all (hf : file.WellFormed) (h : e ∈ all file) : e.InFile file := by
  obtain ⟨n, hn, he⟩ := List.mem_filterMap.mp h
  exact (inFile_of_ofNode? hf (Node.mem_descendants.mp hn) he).2

variable {α : Type}

/-- The elements that are found, each with what was found. -/
theorem mem_found (hf : file.WellFormed) {find : Element → Option α} {p : Element × α}
    (h : p ∈ (all file).filterMap fun e => (find e).map (e, ·)) :
    p.1.InFile file ∧ find p.1 = some p.2 := by
  obtain ⟨e, he, h⟩ := List.mem_filterMap.mp h
  obtain ⟨a, ha, rfl⟩ := Option.map_eq_some_iff.mp h
  exact ⟨inFile_of_mem_all hf he, ha⟩

/-- Plans at single elements make one spread plan, whichever elements are found: elements may lie
in the content or in the attributes of others. -/
theorem spread_found (hf : file.WellFormed) (find : Element → Option α)
    (edits : Element × α → EditPlan)
    (home : ∀ e a, e.InFile file → find e = some a → e.Home file (edits (e, a))) :
    Spread file.text.toList
      (((all file).filterMap fun e => (find e).map (e, ·)).flatMap edits) := by
  have hhome : ∀ p ∈ (all file).filterMap fun e => (find e).map (e, ·), p.1.Home file (edits p) :=
    fun p hp => home p.1 p.2 (mem_found hf hp).1 (mem_found hf hp).2
  have horder : ((all file).filterMap fun e => (find e).map (e, ·)).Pairwise fun p q =>
      p.1.node.stop ≤ q.1.node.start ∨ q.1.node ∈ p.1.node.inside := by
    refine List.pairwise_filterMap.mpr ((pairwise_all hf).imp fun h p hp q hq => ?_)
    obtain ⟨a, -, rfl⟩ := Option.map_eq_some_iff.mp hp
    obtain ⟨b, -, rfl⟩ := Option.map_eq_some_iff.mp hq
    exact h
  refine spread_flatMap (fun p => p.1.node) (fun p hp => ?_) ?_
  · have hp := hhome p hp
    exact ⟨⟨fun ed hed => (hp.holds ed hed).fits, hp.apart⟩,
      fun ed hed => (hp.holds ed hed).within⟩
  · refine horder.imp_of_mem fun hp hq hpq => hpq.imp_right fun hinside _ ed hed => ?_
    exact ((hhome _ hp).holds ed hed).clear _ hinside (mem_found hf hq).1.kind

/-- Each edit at an element that is found lies within an element of the file. -/
theorem within_of_mem_found (hf : file.WellFormed) {find : Element → Option α}
    {edits : Element × α → EditPlan}
    (home : ∀ e a, e.InFile file → find e = some a → e.Home file (edits (e, a))) {ed : Edit}
    (h : ed ∈ ((all file).filterMap fun e => (find e).map (e, ·)).flatMap edits) :
    ∃ m ∈ file.root.preorder, m.kind = .jsxElement ∧ ed.span.Within m.span := by
  obtain ⟨p, hp, hed⟩ := List.mem_flatMap.mp h
  obtain ⟨hin, hfind⟩ := mem_found hf hp
  exact ⟨p.1.node, hin.node, hin.kind, ((home p.1 p.2 hin hfind).holds ed hed).within⟩

end Element
end TokenLint
