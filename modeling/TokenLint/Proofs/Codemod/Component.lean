import TokenLint.Codemod.Badge
import TokenLint.Codemod.Button
import TokenLint.Codemod.Layout
import TokenLint.Proofs.Element.Home
import TokenLint.Proofs.NamedImport

/-!
# Codemods that bring in components

Each finds elements by their classes, edits every element that it finds and adds one import. Their
plans are spread: edits at an element stay within it, and the import's edit is outside of all.
-/
namespace TokenLint.Codemod

open Source Text EditPlan

variable {file : SourceFile}

/-- The edits at elements and the import's edit together. -/
theorem spread_found_import {α : Type} (hf : file.WellFormed) (find : Element → Option α)
    (edits : Element × α → EditPlan)
    (home : ∀ e a, e.InFile file → find e = some a → e.Home file (edits (e, a)))
    (module : String) (names : List String) :
    Spread file.text.toList
      (((Element.all file).filterMap fun e => (find e).map (e, ·)).flatMap edits ++
        NamedImport.ensure file module names) := by
  obtain ⟨hlen, hclear⟩ := NamedImport.ensure_clear hf module names
  refine spread_append (Element.spread_found hf find edits home) ?_ fun a ha b hb => ?_
  · refine ⟨fun e he => (hclear e he).fits, ?_⟩
    generalize NamedImport.ensure file module names = plan at hlen
    match plan, hlen with
    | [], _ => exact .nil
    | [e], _ => exact List.pairwise_singleton _ e
  · obtain ⟨m, hm, hk, hwithin⟩ := Element.within_of_mem_found hf home ha
    have hinside := Node.mem_inside_of_kind_ne hm (by rw [hk, hf.program]; decide)
    exact ((hclear b hb).clear m hinside hk).symm.mono hwithin (Span.Within.refl _)

section
variable (hf : file.WellFormed) {e : Element} (he : e ∈ Element.all file) {span : Span}
  (hspan : e.Holds file span)
include hf he hspan

/-- All edits at elements are apart from what holds at one of them, if its own edits are. -/
theorem apart_of_holds_found {α : Type} (find : Element → Option α)
    (edits : Element × α → EditPlan)
    (home : ∀ e a, e.InFile file → find e = some a → e.Home file (edits (e, a)))
    (hown : ∀ a, find e = some a → ∀ ed ∈ edits (e, a), ed.span.Apart span) :
    ∀ ed ∈ ((Element.all file).filterMap fun e => (find e).map (e, ·)).flatMap edits,
      ed.span.Apart span := by
  intro ed hed
  obtain ⟨⟨x, a⟩, hp, hed⟩ := List.mem_flatMap.mp hed
  obtain ⟨hxin, hfind⟩ := Element.mem_found hf hp
  have hx : x ∈ Element.all file := by
    obtain ⟨y, hy, h⟩ := List.mem_filterMap.mp hp
    obtain ⟨b, -, h⟩ := Option.map_eq_some_iff.mp h
    obtain ⟨rfl, -⟩ := Prod.mk.inj h
    exact hy
  have hin := Element.inFile_of_mem_all hf he
  have hholds := (home x a hxin hfind).holds ed hed
  by_cases hxe : x = e
  · subst hxe
    exact hown a hfind ed hed
  · rcases Element.order_of_mem_all hf hx he hxe with hbefore | hinside | hbehind | hinside
    · exact .inl (Nat.le_trans hholds.within.2 (Nat.le_trans hbefore hspan.within.1))
    · exact (hholds.clear e.node hinside hin.kind).mono (Span.Within.refl _) hspan.within
    · exact .inr (Nat.le_trans hspan.within.2 (Nat.le_trans hbehind hholds.within.1))
    · exact ((hspan.clear x.node hinside hxin.kind).mono (Span.Within.refl _) hholds.within).symm

theorem apart_of_holds_import (module : String) (names : List String) :
    ∀ ed ∈ NamedImport.ensure file module names, ed.span.Apart span := by
  intro ed hed
  have hin := Element.inFile_of_mem_all hf he
  have hne : e.node ∈ file.root.inside :=
    Node.mem_inside_of_kind_ne hin.node (by rw [hin.kind, hf.program]; decide)
  have hclear := ((NamedImport.ensure_clear hf module names).2 ed hed).clear e.node hne hin.kind
  exact hclear.mono (Span.Within.refl _) hspan.within

end

/-- What is found by looking at the classes of an element comes with these classes. -/
theorem classList?_of_found {α : Type} {e : Element} {find : ClassList → Option α} {a : α}
    {c : ClassList}
    (h : (do let classes ← e.classList? file; let a ← find classes; return (a, classes)) =
      some (a, c)) : e.classList? file = some c := by
  obtain ⟨classes, hclasses, h⟩ := Option.bind_eq_some_iff.mp h
  obtain ⟨b, -, h⟩ := Option.bind_eq_some_iff.mp h
  obtain ⟨-, rfl⟩ := Prod.mk.inj (Option.some.inj h)
  exact hclasses

namespace Layout

theorem classList?_of_match? {e : Element} {w : Wrapper} {c : ClassList}
    (h : match? file e = some (w, c)) : e.classList? file = some c := by
  unfold match? at h
  split at h
  · cases h
  · exact classList?_of_found h

/-- Wrapping changes the classes and inserts at the two ends. -/
theorem home_wrap (hf : file.WellFormed) {e : Element} (he : e.InFile file) {c : ClassList}
    (hc : c.Of file e) (w : Wrapper) : e.Home file (wrap file e w c) := by
  have hn := he.nests hf
  have hroot := hn e.node (Node.mem_preorder_self e.node)
  have halign := hf.aligned e.node he.node
  have hretain := ClassList.holds_retain hc hf he fun name => !w.consumed.contains name
  have hstart : e.Holds file ⟨e.node.start, e.node.start⟩ :=
    ⟨halign.start.isRange, hroot.start_within, Node.clear_start hn⟩
  have hstop : e.Holds file ⟨e.node.stop, e.node.stop⟩ :=
    ⟨halign.stop.isRange, hroot.stop_within, Node.clear_stop hn⟩
  unfold wrap
  constructor
  · intro ed hed
    simp only [List.mem_cons, List.not_mem_nil, or_false] at hed
    rcases hed with rfl | rfl | rfl
    · exact hretain
    · exact hstart
    · exact hstop
  · simp only [List.pairwise_cons, List.mem_cons, List.not_mem_nil, or_false]
    refine ⟨?_, ?_, by simp⟩
    · rintro a (rfl | rfl)
      · exact Or.inr hretain.within.1
      · exact Or.inl hretain.within.2
    · rintro a rfl
      exact Or.inl hroot.ordered

theorem home_of_match? (hf : file.WellFormed) (e : Element) (a : Wrapper × ClassList)
    (he : e.InFile file) (ha : match? file e = some a) :
    e.Home file ((fun p : Element × Wrapper × ClassList => wrap file p.1 p.2.1 p.2.2) (e, a)) :=
  home_wrap hf he (ClassList.of_classList? hf he (classList?_of_match? ha)) a.1

theorem spread_plan (hf : file.WellFormed) : Spread file.text.toList (plan file) := by
  have home := home_of_match? hf
  unfold plan
  dsimp only
  split
  · exact Element.spread_found hf (match? file) _ home
  · exact spread_found_import hf (match? file) _ home module _

end Layout

namespace Button

theorem classList?_of_match? {e : Element} {s : Shape} {c : ClassList}
    (h : match? file e = some (s, c)) : e.classList? file = some c := by
  unfold match? at h
  split at h
  · cases h
  · exact classList?_of_found h

theorem spread_plan (hf : file.WellFormed) : Spread file.text.toList (plan file) := by
  unfold plan
  dsimp only
  split
  · exact spread_nil
  · refine spread_found_import hf (match? file) _ (fun e a he ha => ?_) module _
    have hc := ClassList.of_classList? hf he (classList?_of_match? ha)
    exact he.home_convert hf hc _ "Button" (props file e a.1)

end Button

namespace Badge

theorem classList?_of_match? {e : Element} {c : ClassList} (h : match? file e = some c) :
    e.classList? file = some c := by
  unfold match? at h
  split at h
  · exact (Option.filter_eq_some_iff.mp h).1
  · cases h

theorem spread_plan (hf : file.WellFormed) : Spread file.text.toList (plan file) := by
  unfold plan
  dsimp only
  split
  · exact spread_nil
  · refine spread_found_import hf (match? file) _ (fun e c he hc => ?_) module _
    have hof := ClassList.of_classList? hf he (classList?_of_match? hc)
    exact he.home_convert hf hof _ "Badge" (props (toneOf? c.classes))

end Badge
end TokenLint.Codemod
