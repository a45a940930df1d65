import TokenLint.Proofs.Codemod.Conversion
import TokenLint.Proofs.Codemod.LegacyToken.SecondRun

/-!
# Codemods that are done after one run

The codemods for buttons, for badges and for the legacy object have nothing to do on the file that
they leave, if it is read as they left it.
-/
namespace TokenLint.Codemod

open Source Text

variable {file file' : SourceFile}

namespace Button

def conversion (file : SourceFile) : Conversion file (Shape × ClassList) where
  module := module
  name := "Button"
  find := match? file
  classes := (·.2)
  keep := fun a c => !a.1.consumed.contains c
  props := fun e a => props file e a.1
  calls := fun tag classes =>
    tag == "button" && classes.any fun cs => (Shape.ofClasses? cs.contains).isSome
  classList? := fun e a h => classList?_of_match? (s := a.1) (c := a.2) h
  isSome_find := fun e => by
    rw [match?]
    by_cases htag : e.tagName file = "button"
    · rw [if_neg (by simpa using htag), beq_iff_eq.mpr htag, Bool.true_and]
      cases e.classList? file with
      | none => rfl
      | some c =>
        have hhas : c.has = c.classes.contains := rfl
        simp only [Option.bind_eq_bind, Option.bind_some, Option.map_some, Option.any_some, hhas]
        cases Shape.ofClasses? c.classes.contains <;> rfl
    · rw [if_pos (by simpa using htag), beq_eq_false_iff_ne.mpr htag]
      rfl
  unnamed := fun _ => rfl
  renamed := fun _ => rfl
  named := by decide

theorem plan_conversion (file : SourceFile) : button.plan file = (conversion file).plan := rfl

end Button

namespace Badge

def conversion (file : SourceFile) : Conversion file ClassList where
  module := module
  name := "Badge"
  find := match? file
  classes := id
  keep := fun _ c => !isConsumed c
  props := fun _ c => props (toneOf? c.classes)
  calls := fun tag classes =>
    tags.contains tag && classes.any fun cs =>
      cs.contains "rounded-full" && cs.any (begins "px-")
  classList? := fun e a h => classList?_of_match? h
  isSome_find := fun e => by
    rw [match?]
    cases htag : tags.contains (e.tagName file) with
    | false => rfl
    | true =>
      rw [if_pos rfl, Bool.true_and]
      cases e.classList? file with
      | none => rfl
      | some c =>
        rw [Option.map_some, Option.any_some, Option.filter_some, isBadge, ClassList.has]
        split <;> simp_all
  unnamed := fun _ => rfl
  renamed := fun _ => rfl
  named := by decide

theorem plan_conversion (file : SourceFile) : badge.plan file = (conversion file).plan := rfl

end Badge

/-! ### Second runs -/

/-- What a run of a codemod that makes components of elements leaves for a second one. -/
structure Converted {α : Type} (c : Codemod) (find : SourceFile → Element → Option α)
    (component : String) (file file' : SourceFile) : Prop where
  settled : c.plan file' = []
  /-- What was found has the component's name, and nothing else is found where it was not. -/
  elements : ∀ e ∈ Element.all file, ∀ e', e.Again (c.plan file) (find file e).isSome e' →
    if (find file e).isSome then e'.tagName file' = component else find file' e' = none

/-- What the runs on a file leave of it. -/
structure RunsSettled (file file' : SourceFile) : Prop where
  buttons : (Button.conversion file).Rereads file' →
    Converted button Button.match? "Button" file file'
  badges : (Badge.conversion file).Rereads file' → Converted badge Badge.match? "Badge" file file'
  objects : LegacyToken.Rereads file file' → legacyToken.plan file' = [] ∧
    LegacyToken.Retired file file'
  /-- Without an element to convert there is no import either. -/
  noButtons_iff : button.plan file = [] ↔ ∀ e ∈ Element.all file, Button.match? file e = none
  noBadges_iff : badge.plan file = [] ↔ ∀ e ∈ Element.all file, Badge.match? file e = none

/-- What a run leaves of a file: buttons and badges have the components' names, no other element
has become one of them, and the object and its accesses read as they were rewritten. -/
theorem rereads_settled (hf : file.WellFormed) : RunsSettled file file' := by
  have hbutton : (Button.conversion file').calls = (Button.conversion file).calls := rfl
  have hbadge : (Badge.conversion file').calls = (Badge.conversion file).calls := rfl
  constructor
  case buttons =>
    intro h
    exact ⟨Conversion.plan_reread_eq_nil hf h.text hbutton h.only,
      fun e he e' => Conversion.again_of_rereads hf h.text hbutton he⟩
  case badges =>
    intro h
    exact ⟨Conversion.plan_reread_eq_nil hf h.text hbadge h.only,
      fun e he e' => Conversion.again_of_rereads hf h.text hbadge he⟩
  case objects =>
    exact fun h => ⟨LegacyToken.plan_reread_eq_nil h.text hf h, LegacyToken.retired h.text hf⟩
  case noButtons_iff => exact Conversion.plan_eq_nil_iff (c := Button.conversion file)
  case noBadges_iff => exact Conversion.plan_eq_nil_iff (c := Badge.conversion file)

/-! ### A button, a badge and an object -/

def plainButton : SourceFile :=
  SourceFile.parse "a=<p><button class='w-full'>x</button></p>"

def plainButtonAgain : SourceFile := SourceFile.parse
  ("import \x7b Button \x7d from \"@/components/ui/button\";\n\n" ++
    "a=<p><Button fullWidth type=\"button\">x</Button></p>")

/-- The edits of the first run. -/
def plainButtonEdits : EditPlan :=
  [.delete ⟨12, 27⟩, ⟨⟨6, 12⟩, "Button"⟩, ⟨⟨31, 37⟩, "Button"⟩,
    .insert 27 " fullWidth type=\"button\"",
    .insert 0 "import \x7b Button \x7d from \"@/components/ui/button\";\n\n"]

theorem plainButton_read : plainButton.WellFormed ∧ button.plan plainButton = plainButtonEdits ∧
    ∀ e' ∈ Element.all plainButtonAgain, ∃ e ∈ Element.all plainButton,
      e.partsLeft plainButtonEdits = e'.parts.take 1 ∧
      (∀ p ∈ e'.parts.drop 1, p.role = .attribute) ∧
      ((Button.match? plainButton e).isSome = false → e'.parts.drop 1 = []) := by
  decide +kernel

theorem plainButton_rereads : (Button.conversion plainButton).Rereads plainButtonAgain := by
  obtain ⟨-, hplan, hparts⟩ := plainButton_read
  rw [Button.plan_conversion] at hplan
  refine ⟨?_, fun e' he' => ?_⟩
  · rw [hplan, EditPlan.apply_eq_insertionSort (by decide)]
    decide +kernel
  · obtain ⟨e, he, hleft, hadded, hsame⟩ := hparts e' he'
    rw [hplan]
    exact ⟨e, he, Element.again_of_take hleft hadded hsame⟩

def pill : SourceFile :=
  SourceFile.parse "a=<p><div class='rounded-full px-2 mt-1'>x</div></p>"

def pillAgain : SourceFile := SourceFile.parse
  ("import \x7b Badge \x7d from \"@/components/ui/badge\";\n\n" ++
    "a=<p><Badge class='mt-1' variant=\"soft\">x</Badge></p>")

/-- The edits of the first run. -/
def pillEdits : EditPlan :=
  [⟨⟨17, 39⟩, "mt-1"⟩, ⟨⟨6, 9⟩, "Badge"⟩, ⟨⟨44, 47⟩, "Badge"⟩,
    .insert 40 " variant=\"soft\"",
    .insert 0 "import \x7b Badge \x7d from \"@/components/ui/badge\";\n\n"]

theorem pill_read : pill.WellFormed ∧ badge.plan pill = pillEdits ∧
    ∀ e' ∈ Element.all pillAgain, ∃ e ∈ Element.all pill,
      e.partsLeft pillEdits = e'.parts.take 2 ∧ (∀ p ∈ e'.parts.drop 2, p.role = .attribute) ∧
      ((Badge.match? pill e).isSome = false → e'.parts.drop 2 = []) := by
  decide +kernel

theorem pill_rereads : (Badge.conversion pill).Rereads pillAgain := by
  obtain ⟨-, hplan, hparts⟩ := pill_read
  rw [Badge.plan_conversion] at hplan
  refine ⟨?_, fun e' he' => ?_⟩
  · rw [hplan, EditPlan.apply_eq_insertionSort (by decide)]
    decide +kernel
  · obtain ⟨e, he, hleft, hadded, hsame⟩ := hparts e' he'
    rw [hplan]
    exact ⟨e, he, Element.again_of_take hleft hadded hsame⟩

def tokens : SourceFile := SourceFile.parse "const designTokens=m.n;a=designTokens.b"

def tokensAgain : SourceFile := SourceFile.parse
  ("// TODO(ds-migration): replace legacyDesignTokens with design-system primitives\n" ++
    "const legacyDesignTokens=m.n;a=/* TODO(ds-migration): map b */ legacyDesignTokens.b")

/-- The edits of the first run, in the order of the text. -/
def tokensEdits : EditPlan :=
  [.insert 0 "// TODO(ds-migration): replace legacyDesignTokens with design-system primitives\n",
    ⟨⟨6, 18⟩, LegacyToken.newName⟩,
    ⟨⟨25, 39⟩, "/* TODO(ds-migration): map b */ legacyDesignTokens.b"⟩]

open LegacyToken in
theorem tokens_read : tokens.WellFormed ∧
    (LegacyToken.plan tokens).insertionSort (fun a b => a.precedes b) = tokensEdits ∧
    (∀ v' ∈ tokensAgain.root.visits, v'.node.kind = .member → isInnerLink v' = false →
      ∀ r' ∈ origin? v'.node.count v'.node, ∃ v ∈ tokens.root.visits,
        (accessEdit? tokens v = none ∧ v.node.kind = .member ∧ isInnerLink v = false ∧
          ∃ r ∈ (origin? v.node.count v.node).toList, r'.kind = r.kind ∧
            (∀ e ∈ tokensEdits, ¬(e.span.start ≤ r.start ∧ r.stop ≤ e.span.stop)) ∧
            r'.span = tokensEdits.image r.span) ∨
        accessEdit? tokens v = some ⟨v.node.span, replacement "b"⟩ ∧
          v.node.span = ⟨25, 39⟩ ∧ r'.span = ⟨143, 161⟩) ∧
    ∀ d' ∈ declarations tokensAgain, ∃ d ∈ declarations tokens,
      d'.name.kind = d.name.kind ∧ d'.name.span = tokensEdits.image d.name.span := by
  decide +kernel

theorem tokens_rereads : LegacyToken.Rereads tokens tokensAgain := by
  obtain ⟨-, hplan, haccesses, hnames⟩ := tokens_read
  have hspans : ∀ a ∈ LegacyToken.plan tokens, ∀ b ∈ LegacyToken.plan tokens,
      a.span = b.span → a = b := by
    have hdistinct : ∀ a ∈ tokensEdits, ∀ b ∈ tokensEdits, a.span = b.span → a = b := by decide
    have hmem : ∀ a ∈ LegacyToken.plan tokens, a ∈ tokensEdits := fun a ha => by
      rw [← hplan]
      exact (List.perm_insertionSort _ _).mem_iff.mpr ha
    exact fun a ha b hb => hdistinct a (hmem a ha) b (hmem b hb)
  have happlied : LegacyToken.applied tokens = tokensEdits := by
    have hordered : EditPlan.ordered (LegacyToken.plan tokens) = tokensEdits :=
      (EditPlan.ordered_eq_insertionSort hspans).trans hplan
    rw [LegacyToken.applied, EditPlan.accepted, hordered]
    decide +kernel
  have hreplacement : LegacyToken.replacement "b" =
      "/* TODO(ds-migration): map b */ legacyDesignTokens.b" := by
    decide +kernel
  constructor
  · rw [EditPlan.apply_eq_insertionSort hspans, hplan]
    decide +kernel
  · intro v' hv' r' hwhole'
    obtain ⟨v, hv, hsame | ⟨hedit, hspan, hread⟩⟩ :=
      haccesses v' hv' hwhole'.member hwhole'.outer r' hwhole'.origin
    · obtain ⟨hnone, hmember, houter, r, horigin, hkind, hleft, himage⟩ := hsame
      rw [← happlied] at hleft himage
      have hwhole : LegacyToken.Whole v r := ⟨houter, hmember, Option.mem_toList.mp horigin⟩
      exact ⟨v, hv, .inl ⟨hnone, r, hwhole, hkind, hleft, himage⟩⟩
    · refine ⟨v, hv, .inr ⟨"b", hedit, ?_, by decide, ?_⟩⟩
      · rw [happlied, hspan, hreplacement]
        decide
      · rw [hread, LegacyToken.newNameSpan, happlied, hspan]
        decide +kernel
  · rw [happlied]
    exact hnames

theorem plainButton_pill_tokens_settled :
    Converted button Button.match? "Button" plainButton plainButtonAgain ∧
    Converted badge Badge.match? "Badge" pill pillAgain ∧
    legacyToken.plan tokensAgain = [] ∧ LegacyToken.Retired tokens tokensAgain :=
  ⟨(rereads_settled plainButton_read.1).buttons plainButton_rereads,
    (rereads_settled pill_read.1).badges pill_rereads,
    (rereads_settled tokens_read.1).objects tokens_rereads⟩

end TokenLint.Codemod
