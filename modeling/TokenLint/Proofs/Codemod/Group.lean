import Mathlib.Data.List.Find
import TokenLint.Proofs.Codemod.Layout.Edits
import TokenLint.Proofs.Codemod.Settled
import TokenLint.Proofs.Text.Ends

/-!
# Groups of classes

A button, a wrapper and a badge are told from which classes an element has, not from the order of
the classes or from how often each occurs. An element loses a class only for what calls for the
component: a whole group of classes, a size, or the two classes that make a badge.
-/
namespace TokenLint

open Source Text

variable {file : SourceFile} {e : Element} {c c' : ClassList} {name : String}

theorem ClassList.has_congr (h : ∀ name, name ∈ c.classes ↔ name ∈ c'.classes) :
    c.has = c'.has := by
  funext name
  rw [has, has, Bool.eq_iff_iff, List.contains_iff_mem, List.contains_iff_mem, h]

/-! ### What elements lose -/

section
variable (hf : file.WellFormed) (he : e ∈ Element.all file) (hc : e.classList? file = some c)
include hf he hc

/-- A conversion takes classes from what it finds only, and all those that it does not keep. -/
theorem Conversion.loses_iff {α : Type} {v : Conversion file α} :
    c.Loses v.plan file.text name ↔
      name ∈ c.classes ∧ ∃ a, v.find e = some a ∧ v.classes a = c ∧ v.keep a name = false := by
  have hplan := Conversion.spread_plan (c := v) hf
  cases hfind : v.find e with
  | none =>
    have hapart := Conversion.apart_of_holds hf he hfind (ClassList.holds_content hf he hc)
    exact iff_of_false (ClassList.not_loses_of_apart hf he hc hplan hapart) (by simp)
  | some a =>
    obtain rfl := Option.some.inj ((v.classList? e a hfind).symm.trans hc)
    have hretain := Conversion.mem_plan he hfind
      (List.mem_append_left _ List.mem_cons_self : (v.classes a).retain (v.keep a) ∈ v.edits (e, a))
    rw [ClassList.loses_iff hf he hc hplan hretain]
    simp

/-- A wrapper takes classes from the element around which it stands. -/
theorem Codemod.Layout.loses_iff : c.Loses (layout.plan file) file.text name ↔
    name ∈ c.classes ∧ ∃ w, Layout.match? file e = some (w, c) ∧ name ∈ w.consumed := by
  rw [show layout.plan file = Layout.plan file from rfl]
  have hplan := Layout.spread_plan hf
  cases hmatch : Layout.match? file e with
  | none =>
    have hapart := Layout.apart_of_holds hf he (ClassList.holds_content hf he hc)
      (Layout.ownApart_of_none hmatch _)
    exact iff_of_false (ClassList.not_loses_of_apart hf he hc hplan hapart) (by simp)
  | some a =>
    obtain ⟨w, d⟩ := a
    obtain rfl := Option.some.inj ((Layout.classList?_of_match? hmatch).symm.trans hc)
    have hretain := Layout.mem_plan_of_wrap he hmatch List.mem_cons_self
    rw [ClassList.loses_iff hf he hc hplan hretain]
    simp

end

namespace Codemod

/-- Classes that call for a tone or for a wrapper if the others of their group are there too. -/
def groupClasses : List String :=
  Button.accentClasses ++ Button.neutralClasses ++ Layout.Wrapper.groups.flatten

/-- Classes that a size or the container takes. -/
def spaceClasses : List String := Button.spacingClasses ++ Layout.gutterClasses

/-! ### Wrappers -/

namespace Layout.Wrapper

/-- A wrapper is called for by its whole group. -/
theorem group_of_ofClasses? {has : String → Bool} {w : Wrapper} (h : ofClasses? has = some w) :
    ∀ name ∈ w.group, has name := by
  unfold ofClasses? at h
  split at h
  · rename_i hall
    obtain rfl := Option.some.inj h
    exact List.all_eq_true.mp hall
  · obtain ⟨⟨classes, size⟩, hp, rfl⟩ := Option.map_eq_some_iff.mp h
    have hall := List.find?_some hp
    exact List.all_eq_true.mp hall

/-- Of the wrappers the container alone takes space. -/
theorem eq_container_of_space : ∀ w ∈ all, ∀ name ∈ spaceClasses, name ∈ w.consumed →
    w = container := by
  decide +kernel

end Layout.Wrapper

theorem Layout.match?_congr (htag : e.tagName file = e'.tagName file')
    (hc : e.classList? file = some c) (hc' : e'.classList? file' = some c')
    (h : ∀ name, name ∈ c.classes ↔ name ∈ c'.classes) :
    (match? file e).map (·.1) = (match? file' e').map (·.1) := by
  have hhas : c.classes.contains = c'.classes.contains := ClassList.has_congr h
  simp only [map_match?, wrapper?, Element.tag_reading, Element.classes?_reading, hc, hc', htag,
    Option.map_some, Option.bind_some, hhas]

section
variable (hf : file.WellFormed) (he : e ∈ Element.all file) (hc : e.classList? file = some c)
include hf he hc

/-- A class of a group is lost to a wrapper whose group the element has as a whole. -/
theorem Layout.group_of_loses (h : c.Loses (layout.plan file) file.text name) :
    ∃ w, Wrapper.ofClasses? c.has = some w ∧ name ∈ w.consumed ∧
      (∀ other ∈ w.group, other ∈ c.classes) ∧ (name ∈ spaceClasses → w = .container) := by
  obtain ⟨-, w, hmatch, hname⟩ := (loses_iff hf he hc).mp h
  have hcalls := (matched hmatch).2
  refine ⟨w, hcalls, hname, fun other hother => ?_, fun hspace => ?_⟩
  · exact List.contains_iff_mem.mp (Wrapper.group_of_ofClasses? hcalls other hother)
  · exact Wrapper.eq_container_of_space w (Wrapper.mem_all_of_ofClasses? hcalls) name hspace hname

end

/-! ### Buttons -/

namespace Button

/-- The classes that call for a tone. -/
def Tone.group : Tone → List String
  | accent => accentClasses
  | neutral => neutralClasses

theorem Tone.group_of_ofClasses? {has : String → Bool} {t : Tone} (h : ofClasses? has = some t) :
    ∀ name ∈ t.group, has name := by
  unfold ofClasses? at h
  split at h
  · rename_i hall
    obtain rfl := Option.some.inj h
    exact List.all_eq_true.mp hall
  · split at h
    · rename_i hall
      obtain rfl := Option.some.inj h
      exact List.all_eq_true.mp hall
    · cases h

/-- A tone takes no space, and neither space nor the full width is of a group. -/
theorem Tone.apart_space : (∀ t : Tone, ∀ name ∈ t.consumed, name ∉ spaceClasses) ∧
    (∀ name ∈ spacingClasses, name ∉ groupClasses) ∧
    "w-full" ∉ groupClasses ∧ "w-full" ∉ spaceClasses := by
  refine ⟨fun t => ?_, ?_⟩
  · cases t <;> decide +kernel
  · decide +kernel

theorem Shape.ofClasses?_eq {has : String → Bool} {s : Shape} (h : ofClasses? has = some s) :
    s = ⟨Tone.ofClasses? has, sizeOf? has, has "w-full"⟩ := by
  unfold ofClasses? at h
  dsimp only at h
  split at h
  · exact (Option.some.inj h).symm
  · cases h

theorem Shape.mem_consumed {s : Shape} : name ∈ s.consumed ↔
    (∃ t, s.tone = some t ∧ name ∈ t.consumed) ∨ (s.size.isSome ∧ name ∈ spacingClasses) ∨
      (s.fullWidth ∧ name = "w-full") := by
  obtain ⟨tone, size, fullWidth⟩ := s
  cases tone <;> cases size <;> cases fullWidth <;> simp [consumed]

theorem ofClasses?_of_match? {s : Shape} (h : match? file e = some (s, c)) :
    Shape.ofClasses? c.has = some s := by
  unfold match? at h
  split at h
  · cases h
  · obtain ⟨d, -, h⟩ := Option.bind_eq_some_iff.mp h
    obtain ⟨s', hs, h⟩ := Option.bind_eq_some_iff.mp h
    obtain ⟨rfl, rfl⟩ := Prod.mk.inj (Option.some.inj h)
    exact hs

theorem match?_congr (htag : e.tagName file = e'.tagName file')
    (hc : e.classList? file = some c) (hc' : e'.classList? file' = some c')
    (h : ∀ name, name ∈ c.classes ↔ name ∈ c'.classes) :
    (match? file e).map (·.1) = (match? file' e').map (·.1) := by
  rw [match?, match?, htag, hc, hc']
  split
  · rfl
  · simp only [Option.bind_eq_bind, Option.bind_some, ClassList.has_congr h]
    cases Shape.ofClasses? c'.has <;> rfl

section
variable (hf : file.WellFormed) (he : e ∈ Element.all file) (hc : e.classList? file = some c)
include hf he hc

theorem loses_iff : c.Loses (button.plan file) file.text name ↔
    name ∈ c.classes ∧ ∃ s, match? file e = some (s, c) ∧ name ∈ s.consumed := by
  rw [plan_conversion, Conversion.loses_iff hf he hc]
  simp [conversion]

/-- A class is lost to the shape of the button. -/
theorem consumed_of_loses (h : c.Loses (button.plan file) file.text name) :
    (∃ t, Tone.ofClasses? c.has = some t ∧ name ∈ t.consumed) ∨
      ((sizeOf? c.has).isSome ∧ name ∈ spacingClasses) ∨ name = "w-full" := by
  obtain ⟨-, s, hmatch, hconsumed⟩ := (loses_iff hf he hc).mp h
  rw [Shape.mem_consumed, Shape.ofClasses?_eq (ofClasses?_of_match? hmatch)] at hconsumed
  exact hconsumed.imp_right (Or.imp_right And.right)

end
end Button

/-! ### Badges -/

namespace Badge

theorem isBadge_of_match? (h : match? file e = some c) : isBadge c := by
  unfold match? at h
  split at h
  · exact (Option.filter_eq_some_iff.mp h).2
  · cases h

theorem solid_backgrounds : ∀ p ∈ tones, ∀ b ∈ p.1, b.toList ≠ [] ∧ ' ' ∉ b.toList := by
  decide +kernel

/-- A background does not reach over the end of a class, so the tone is told from each class for
itself. -/
theorem toneOf?_eq (classes : List String) : toneOf? classes =
    (tones.find? fun (backgrounds, _) => backgrounds.any fun b =>
      classes.any fun name => Text.contains name.toList b.toList).map (·.2) := by
  unfold toneOf?
  refine congrArg (Option.map _) (List.find?_congr fun p hp => ?_)
  rw [Bool.eq_iff_iff, List.any_eq_true, List.any_eq_true]
  refine exists_congr fun b => and_congr_right fun hb => ?_
  obtain ⟨hsome, hblank⟩ := solid_backgrounds p hp b hb
  rw [contains_iff, infix_intercalate_iff hsome hblank, List.any_eq_true]
  simp only [contains_iff]

theorem toneOf?_congr {classes classes' : List String}
    (h : ∀ name, name ∈ classes ↔ name ∈ classes') : toneOf? classes = toneOf? classes' := by
  have hany : ∀ p : String → Bool, classes.any p = classes'.any p := fun p => by
    rw [Bool.eq_iff_iff, List.any_eq_true, List.any_eq_true]
    simp only [h]
  rw [toneOf?_eq, toneOf?_eq]
  simp only [hany]

theorem isBadge_congr (h : ∀ name, name ∈ c.classes ↔ name ∈ c'.classes) :
    isBadge c = isBadge c' := by
  rw [isBadge, isBadge, ClassList.has_congr h, Bool.eq_iff_iff, Bool.and_eq_true, Bool.and_eq_true,
    List.any_eq_true, List.any_eq_true]
  simp only [h]

theorem match?_congr (htag : e.tagName file = e'.tagName file')
    (hc : e.classList? file = some c) (hc' : e'.classList? file' = some c')
    (h : ∀ name, name ∈ c.classes ↔ name ∈ c'.classes) :
    (match? file e).map (fun a => toneOf? a.classes) =
      (match? file' e').map (fun a => toneOf? a.classes) := by
  rw [match?, match?, htag, hc, hc']
  split
  · rw [Option.filter_some, Option.filter_some, isBadge_congr h]
    split
    · exact congrArg some (toneOf?_congr h)
    · rfl
  · rfl

section
variable (hf : file.WellFormed) (he : e ∈ Element.all file) (hc : e.classList? file = some c)
include hf he hc

theorem loses_iff : c.Loses (badge.plan file) file.text name ↔
    name ∈ c.classes ∧ match? file e = some c ∧ isConsumed name := by
  rw [plan_conversion, Conversion.loses_iff hf he hc]
  simp [conversion]

/-- A class is lost to the two classes that make a badge. -/
theorem isBadge_of_loses (h : c.Loses (badge.plan file) file.text name) :
    isConsumed name ∧ "rounded-full" ∈ c.classes ∧ ∃ other ∈ c.classes, begins "px-" other := by
  obtain ⟨-, hmatch, hconsumed⟩ := (loses_iff hf he hc).mp h
  obtain ⟨hround, hpadded⟩ := Bool.and_eq_true_iff.mp (isBadge_of_match? hmatch)
  exact ⟨hconsumed, List.contains_iff_mem.mp hround, List.any_eq_true.mp hpadded⟩

end
end Badge

/-! ### What shapes depend on -/

/-- Two elements call for the same: for one button and what it consumes, for one wrapper, for a
badge of one tone. -/
structure SameShapes (file file' : SourceFile) (e e' : Element) : Prop where
  button : (Button.match? file e).map (fun a => (a.1, a.1.consumed)) =
    (Button.match? file' e').map (fun a => (a.1, a.1.consumed))
  wrapper : (Layout.match? file e).map (·.1) = (Layout.match? file' e').map (·.1)
  badge : (Badge.match? file e).map (fun a => Badge.toneOf? a.classes) =
    (Badge.match? file' e').map (fun a => Badge.toneOf? a.classes)

theorem sameShapes {file file' : SourceFile} {e e' : Element} {c c' : ClassList}
    (htag : e.tagName file = e'.tagName file') (hc : e.classList? file = some c)
    (hc' : e'.classList? file' = some c') (h : ∀ name, name ∈ c.classes ↔ name ∈ c'.classes) :
    SameShapes file file' e e' := by
  constructor
  case button =>
    have hshape := Button.match?_congr htag hc hc' h
    have hconsumed := congrArg (Option.map fun s : Button.Shape => (s, s.consumed)) hshape
    rwa [Option.map_map, Option.map_map] at hconsumed
  case wrapper => exact Layout.match?_congr htag hc hc' h
  case badge => exact Badge.match?_congr htag hc hc' h

/-- What an element has that loses a class: of a group all of it, of the spacing a size, of the
gutters the container, and of a badge the two classes that make one. -/
structure LostToGroups (file : SourceFile) (c : ClassList) (name : String) : Prop where
  tone : c.Loses (button.plan file) file.text name → name ∈ groupClasses →
    ∃ t, Button.Tone.ofClasses? c.has = some t ∧ name ∈ t.consumed ∧
      ∀ other ∈ t.group, other ∈ c.classes
  size : c.Loses (button.plan file) file.text name → name ∈ spaceClasses →
    (Button.sizeOf? c.has).isSome
  wrapper : c.Loses (layout.plan file) file.text name → name ∈ groupClasses →
    ∃ w, Layout.Wrapper.ofClasses? c.has = some w ∧ name ∈ w.consumed ∧
      ∀ other ∈ w.group, other ∈ c.classes
  container : c.Loses (layout.plan file) file.text name → name ∈ spaceClasses →
    ∀ other ∈ Layout.containerClasses, other ∈ c.classes
  badge : c.Loses (badge.plan file) file.text name → Badge.isConsumed name ∧
    "rounded-full" ∈ c.classes ∧ ∃ other ∈ c.classes, Badge.begins "px-" other

theorem lostToGroups {file : SourceFile} {e : Element} {c : ClassList} (hf : file.WellFormed)
    (he : e ∈ Element.all file) (hc : e.classList? file = some c) (name : String) :
    LostToGroups file c name := by
  obtain ⟨htones, hspacing, hgroup, hspace⟩ := Button.Tone.apart_space
  constructor
  case tone =>
    intro h hmem
    obtain ⟨t, htone, hname⟩ | ⟨-, hname⟩ | rfl := Button.consumed_of_loses hf he hc h
    · exact ⟨t, htone, hname, fun other hother =>
        List.contains_iff_mem.mp (Button.Tone.group_of_ofClasses? htone other hother)⟩
    · exact absurd hmem (hspacing name hname)
    · exact absurd hmem hgroup
  case size =>
    intro h hmem
    obtain ⟨t, -, hname⟩ | ⟨hsize, -⟩ | rfl := Button.consumed_of_loses hf he hc h
    · exact absurd hmem (htones t name hname)
    · exact hsize
    · exact absurd hmem hspace
  case wrapper =>
    intro h _
    obtain ⟨w, hcalls, hname, hgroup, -⟩ := Layout.group_of_loses hf he hc h
    exact ⟨w, hcalls, hname, hgroup⟩
  case container =>
    intro h hmem
    obtain ⟨w, -, -, hgroup, hcontainer⟩ := Layout.group_of_loses hf he hc h
    obtain rfl := hcontainer hmem
    exact hgroup
  case badge => exact Badge.isBadge_of_loses hf he hc

/-- Elements of one name that have the same classes, in any order and however often, call for the
same. What an element loses of the groups of a codemod it loses to a group that it has as a whole,
to a size or to the container, and to a badge only if it has the two classes that make one. -/
theorem shapes_by_groups :
    (∀ (file file' : SourceFile) (e e' : Element) (c c' : ClassList),
      e.tagName file = e'.tagName file' → e.classList? file = some c →
      e'.classList? file' = some c' → (∀ name, name ∈ c.classes ↔ name ∈ c'.classes) →
      SameShapes file file' e e') ∧
    ∀ (file : SourceFile) (e : Element) (c : ClassList) (name : String), file.WellFormed →
      e ∈ Element.all file → e.classList? file = some c → LostToGroups file c name :=
  ⟨fun _ _ _ _ _ _ htag hc hc' h => sameShapes htag hc hc' h,
    fun _ _ _ name hf he hc => lostToGroups hf he hc name⟩

def grayButton : SourceFile :=
  .parse "a=<button class='text-white hover:bg-gray-800 bg-gray-900'>x</button>"

/-- A box that also has the classes of a badge. -/
def roundBox : SourceFile := .parse "a=<div class='mx-auto px-4 rounded-full max-w-7xl'>x</div>"

/-- The same classes in another order, one of them twice. -/
def roundBoxMixed : SourceFile :=
  .parse "a=<div class='px-4 max-w-7xl mx-auto px-4 rounded-full'>x</div>"

theorem grayButton_roundBox_shapes :
    (grayButton.WellFormed ∧ ∃ e ∈ Element.all grayButton, ∃ c, e.classList? grayButton = some c ∧
      c.Loses (button.plan grayButton) grayButton.text "text-white" ∧
      ∃ t, Button.Tone.ofClasses? c.has = some t ∧ "text-white" ∈ t.consumed ∧
        ∀ other ∈ t.group, other ∈ c.classes) ∧
    (roundBox.WellFormed ∧ ∃ e ∈ Element.all roundBox, ∃ e' ∈ Element.all roundBoxMixed, ∃ c c',
      e.classList? roundBox = some c ∧ e'.classList? roundBoxMixed = some c' ∧
      c.classes ≠ c'.classes ∧
      (Layout.match? roundBox e).map (·.1) = (Layout.match? roundBoxMixed e').map (·.1) ∧
      c.Loses (layout.plan roundBox) roundBox.text "px-4" ∧
      (∀ other ∈ Layout.containerClasses, other ∈ c.classes) ∧
      c.Loses (badge.plan roundBox) roundBox.text "px-4" ∧
      ∃ other ∈ c.classes, Badge.begins "px-" other) := by
  obtain ⟨hsame, hlost⟩ := shapes_by_groups
  constructor
  · obtain ⟨hf, e, he, ⟨s, c⟩, hmatch, hmem, htaken⟩ : grayButton.WellFormed ∧
        ∃ e ∈ Element.all grayButton, ∃ a ∈ Button.match? grayButton e,
          "text-white" ∈ a.2.classes ∧ "text-white" ∈ a.1.consumed := by
      decide +kernel
    have hc := Button.classList?_of_match? hmatch
    have hloses := (Button.loses_iff hf he hc).mpr ⟨hmem, s, hmatch, htaken⟩
    exact ⟨hf, e, he, c, hc, hloses,
      (hlost grayButton e c _ hf he hc).tone hloses (by decide)⟩
  · obtain ⟨hf, e, he, e', he', htag, ⟨w, c⟩, hmatch, c', hc', hbadge, hclasses, hclasses',
        htaken⟩ :
        roundBox.WellFormed ∧ ∃ e ∈ Element.all roundBox, ∃ e' ∈ Element.all roundBoxMixed,
          e.tagName roundBox = e'.tagName roundBoxMixed ∧ ∃ a ∈ Layout.match? roundBox e,
          ∃ c' ∈ e'.classList? roundBoxMixed, (Badge.match? roundBox e).isSome ∧
          a.2.classes = ["mx-auto", "px-4", "rounded-full", "max-w-7xl"] ∧
          c'.classes = ["px-4", "max-w-7xl", "mx-auto", "px-4", "rounded-full"] ∧
          "px-4" ∈ a.1.consumed := by
      decide +kernel
    have hc := Layout.classList?_of_match? hmatch
    obtain ⟨d, hbadge⟩ := Option.isSome_iff_exists.mp hbadge
    obtain rfl := Option.some.inj ((Badge.classList?_of_match? hbadge).symm.trans hc)
    have hnames : ∀ name, name ∈ d.classes ↔ name ∈ c'.classes := by
      rw [hclasses, hclasses']
      simp only [List.mem_cons]
      grind
    have hmem : "px-4" ∈ d.classes := by rw [hclasses]; decide
    have hbox := (Layout.loses_iff hf he hc).mpr ⟨hmem, w, hmatch, htaken⟩
    have hpill := (Badge.loses_iff hf he hc).mpr ⟨hmem, hbadge, by decide⟩
    have hgroups := hlost roundBox e d "px-4" hf he hc
    exact ⟨hf, e, he, e', he', d, c', hc, hc', by rw [hclasses, hclasses']; decide,
      (hsame roundBox roundBoxMixed e e' d c' htag hc hc' hnames).wrapper, hbox,
      hgroups.container hbox (by decide), hpill, (hgroups.badge hpill).2.2⟩

end Codemod
end TokenLint
