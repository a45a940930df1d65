import TokenLint.Proofs.Codemod.Component
import TokenLint.Proofs.Codemod.Layout.Leftover
import TokenLint.Proofs.Element.Kept

/-!
# The edits of the layout wrappers

An element is wrapped for what is read in its tag. Its own edits are one of the classes and two at
its ends; the edits of all other elements, and the import's, are apart from the parts of its tag.
-/
namespace TokenLint.Codemod.Layout

open Source Text

/-- The wrapper that what is read in a tag calls for. -/
def wrapper? (rs : List Reading) : Option Wrapper :=
  if wrapperTags.contains (Reading.tag rs) then none
  else (Reading.classes? rs).bind fun classes => Wrapper.ofClasses? classes.contains

theorem map_match? (file : SourceFile) (e : Element) :
    (match? file e).map (·.1) = wrapper? (e.reading file) := by
  rw [match?, wrapper?, Element.tag_reading, Element.classes?_reading]
  split
  · rfl
  · cases e.classList? file with
    | none => rfl
    | some c =>
      simp only [Option.bind_eq_bind, Option.bind_some, Option.map_some]
      have hhas : c.has = c.classes.contains := rfl
      rw [hhas]
      cases Wrapper.ofClasses? c.classes.contains <;> rfl

theorem matched {file : SourceFile} {e : Element} {w : Wrapper} {c : ClassList}
    (h : match? file e = some (w, c)) : wrapperTags.contains (e.tagName file) = false ∧
      Wrapper.ofClasses? c.classes.contains = some w := by
  unfold match? at h
  split at h
  · cases h
  · rename_i hother
    obtain ⟨c', -, h⟩ := Option.bind_eq_some_iff.mp h
    obtain ⟨w', hcalls, h⟩ := Option.bind_eq_some_iff.mp h
    obtain ⟨rfl, rfl⟩ := Prod.mk.inj (Option.some.inj h)
    exact ⟨by simpa using hother, hcalls⟩

theorem plan_eq_nil_iff (file : SourceFile) :
    plan file = [] ↔ ∀ e ∈ Element.all file, wrapper? (e.reading file) = none := by
  have hfound : ∀ e ∈ Element.all file, wrapper? (e.reading file) = none ↔
      (match? file e).map (e, ·) = none := fun e _ => by
    rw [← map_match?, Option.map_eq_none_iff, Option.map_eq_none_iff]
  rw [forall₂_congr hfound, ← List.filterMap_eq_nil_iff]
  unfold plan
  dsimp only
  cases hlist : (Element.all file).filterMap fun e => (match? file e).map (e, ·) with
  | nil => simp [distinct]
  | cons p ps =>
    refine iff_of_false (fun h => ?_) (List.cons_ne_nil _ _)
    split at h
    · simp [wrap] at h
    · simp [wrap] at h

variable {file : SourceFile} {e : Element} {w : Wrapper} {c : ClassList}

theorem mem_wraps {ed : Edit} :
    ed ∈ ((Element.all file).filterMap fun e => (match? file e).map (e, ·)).flatMap
        (fun p => wrap file p.1 p.2.1 p.2.2) ↔
      ∃ x ∈ Element.all file, ∃ w c, match? file x = some (w, c) ∧ ed ∈ wrap file x w c := by
  constructor
  · intro h
    obtain ⟨p, hp, hed⟩ := List.mem_flatMap.mp h
    obtain ⟨x, hx, hp⟩ := List.mem_filterMap.mp hp
    obtain ⟨⟨w, c⟩, hmatch, rfl⟩ := Option.map_eq_some_iff.mp hp
    exact ⟨x, hx, w, c, hmatch, hed⟩
  · rintro ⟨x, hx, w, c, hmatch, hed⟩
    refine List.mem_flatMap.mpr ⟨(x, w, c), List.mem_filterMap.mpr ⟨x, hx, ?_⟩, hed⟩
    rw [hmatch]
    rfl

theorem mem_plan_of_wrap (he : e ∈ Element.all file) (hmatch : match? file e = some (w, c))
    {ed : Edit} (hed : ed ∈ wrap file e w c) : ed ∈ plan file := by
  have hmem := mem_wraps.mpr ⟨e, he, w, c, hmatch, hed⟩
  unfold plan
  dsimp only
  split
  · exact hmem
  · exact List.mem_append_left _ hmem

theorem retain_of_left_eq_nil (hleft : w.left c.classes = []) :
    (c.retain fun name => !w.consumed.contains name) = .delete c.slot :=
  ClassList.retain_of_kept_eq_nil hleft

theorem retain_of_left_ne_nil (hleft : w.left c.classes ≠ []) :
    (c.retain fun name => !w.consumed.contains name) =
      ⟨c.value.content, " ".intercalate (w.left c.classes)⟩ :=
  ClassList.retain_of_kept_ne_nil hleft

/-- The element's own edit of the classes, if it is wrapped, is apart from a range. -/
def OwnApart (file : SourceFile) (e : Element) (span : Span) : Prop :=
  ∀ w c, match? file e = some (w, c) →
    (c.retain fun name => !w.consumed.contains name).span.Apart span

theorem ownApart_of_none (h : match? file e = none) (span : Span) : OwnApart file e span := by
  intro w c hmatch
  rw [h] at hmatch
  cases hmatch

theorem ownApart_of_match (h : match? file e = some (w, c)) {span : Span}
    (hapart : (c.retain fun name => !w.consumed.contains name).span.Apart span) :
    OwnApart file e span := by
  intro w' c' hmatch
  obtain ⟨rfl, rfl⟩ := Prod.mk.inj (Option.some.inj (h.symm.trans hmatch))
  exact hapart

theorem OwnApart.mono {outer span : Span} (h : OwnApart file e outer) (hspan : span.Within outer) :
    OwnApart file e span :=
  fun w c hmatch => (h w c hmatch).mono (Span.Within.refl _) hspan

variable (hf : file.WellFormed) (he : e ∈ Element.all file)
include hf he

/-- A child of the tag other than the class attribute is apart from the edit of the classes. -/
theorem ownApart_of_ne (h : match? file e = some (w, c)) {d : Node} (hd : d ∈ e.opening.children)
    (hne : d ≠ c.holder) : OwnApart file e d.span := by
  have hin := Element.inFile_of_mem_all hf he
  have hc := ClassList.of_classList? hf hin (classList?_of_match? h)
  have hslot := (hc.apart d hd).resolve_left hne
  exact ownApart_of_match h
    (hslot.mono (ClassList.retain_within hc hf hin _) (Span.Within.refl _))

/-- All edits are apart from what holds at an element, if its own edit of the classes is. -/
theorem apart_of_holds {span : Span} (hspan : e.Holds file span) (hown : OwnApart file e span) :
    ∀ ed ∈ plan file, ed.span.Apart span := by
  have hwraps := apart_of_holds_found hf he hspan (match? file)
    (fun p => wrap file p.1 p.2.1 p.2.2) (home_of_match? hf) fun a hmatch ed hed => by
    simp only [wrap, List.mem_cons, List.not_mem_nil, or_false] at hed
    rcases hed with rfl | rfl | rfl
    · exact hown a.1 a.2 hmatch
    · exact .inl hspan.within.1
    · exact .inr hspan.within.2
  intro ed hed
  unfold plan at hed
  dsimp only at hed
  split at hed
  · exact hwraps ed hed
  · rcases List.mem_append.mp hed with hed | hed
    · exact hwraps ed hed
    · exact apart_of_holds_import hf he hspan module _ ed hed

end TokenLint.Codemod.Layout
