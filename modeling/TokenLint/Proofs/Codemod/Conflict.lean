import TokenLint.Codemod.Catalog
import TokenLint.Proofs.Codemod.Component
import TokenLint.Proofs.Codemod.HexColor
import TokenLint.Proofs.Codemod.LegacyToken.Retire

/-!
# Which plans lose edits

On a well-formed tree every codemod plans edits that fit the text, and all of them are applied,
but for one case: where the legacy object is exported behind an access to it.
-/
namespace TokenLint.Codemod

open Source Text

/-- A plan is spread, so it loses nothing; or it is the legacy object's, with its condition. -/
theorem spread_or_legacyToken {file : SourceFile} (hf : file.WellFormed) {c : Codemod}
    (hc : c ∈ all) : c = legacyToken ∨ c ≠ legacyToken ∧ (c.plan file).Spread file.text.toList := by
  have hne : ∀ d : Codemod, d.name ≠ legacyToken.name → d ≠ legacyToken :=
    fun d hname h => hname (congrArg Codemod.name h)
  simp only [all, List.mem_cons, List.not_mem_nil, or_false] at hc
  rcases hc with rfl | rfl | rfl | rfl | rfl
  · exact Or.inr ⟨hne _ (by decide), Layout.spread_plan hf⟩
  · exact Or.inr ⟨hne _ (by decide), Button.spread_plan hf⟩
  · exact Or.inr ⟨hne _ (by decide), Badge.spread_plan hf⟩
  · exact Or.inr ⟨hne _ (by decide), HexColor.spread_plan hf⟩
  · exact Or.inl rfl

/-- The edits of a codemod fit the text, are free of conflicts and are all applied, except where
an access to the legacy object is swallowed with the export of its declaration. -/
theorem conflictFree_and_kept_iff {file : SourceFile} (hf : file.WellFormed) {c : Codemod}
    (hc : c ∈ all) :
    (∀ e ∈ c.plan file, IsRange file.text.toList e.span) ∧
      ((c.plan file).ConflictFree ↔ ¬ (c = legacyToken ∧ LegacyToken.Swallows file)) ∧
      ((c.plan file).Kept file.text ↔ ¬ (c = legacyToken ∧ LegacyToken.Swallows file)) := by
  have hplan : (∀ e ∈ c.plan file, IsRange file.text.toList e.span) ∧
      ((c.plan file).ConflictFree ↔ ¬ (c = legacyToken ∧ LegacyToken.Swallows file)) := by
    rcases spread_or_legacyToken hf hc with rfl | ⟨hne, hspread⟩
    · refine ⟨LegacyToken.fits_plan hf, (LegacyToken.conflictFree_iff hf).trans ?_⟩
      rw [not_and]
      exact ⟨fun h _ => h, fun h => h rfl⟩
    · exact ⟨hspread.fits, fun _ h => hne h.1, fun _ => hspread.conflictFree⟩
  obtain ⟨hfits, hfree⟩ := hplan
  exact ⟨hfits, hfree, (EditPlan.kept_iff_conflictFree hfits).trans hfree⟩

/-- The tree of an export behind a decorator. -/
def decoratedExport : SourceFile where
  text := "@track(designTokens.spacing.logo) export const designTokens = {};"
  root :=
    .mk .program .item 0 65 [
      .mk .exportStatement .item 0 65 [
        .mk .other .item 0 33 [
          .mk .call .item 1 33 [
            .mk .identifier .callee 1 6 [],
            .mk .arguments .arguments 6 33 [
              .mk .member .item 7 32 [
                .mk .member .object 7 27 [
                  .mk .identifier .object 7 19 [],
                  .mk .propertyName .property 20 27 []],
                .mk .propertyName .property 28 32 []]]]],
        .mk .declaration .declaration 41 65 [
          .mk .declarator .item 47 64 [
            .mk .identifier .name 47 59 [],
            .mk .object .value 62 64 []]]]]

theorem decoratedExport_wellFormed : decoratedExport.WellFormed := by
  decide +kernel

theorem decoratedExport_kept_iff : decoratedExport.WellFormed ∧ legacyToken ∈ all ∧
    ((legacyToken.plan decoratedExport).Kept decoratedExport.text ↔
      ¬ (legacyToken = legacyToken ∧ LegacyToken.Swallows decoratedExport)) := by
  have hmem : legacyToken ∈ all := by simp [all]
  exact ⟨decoratedExport_wellFormed, hmem,
    (conflictFree_and_kept_iff decoratedExport_wellFormed hmem).2.2⟩

/-- The class in the decorator is planned and lost: what is deleted runs from the decorator to the
declaration. -/
theorem decoratedExport_not_kept : decoratedExport.WellFormed ∧
    ¬ (legacyToken.plan decoratedExport).Kept decoratedExport.text := by
  have hwf := decoratedExport_wellFormed
  have hswallows : LegacyToken.Swallows decoratedExport := by decide +kernel
  refine ⟨hwf, fun hkept => ?_⟩
  have hfree := (EditPlan.kept_iff_conflictFree (LegacyToken.fits_plan hwf)).mp hkept
  exact LegacyToken.not_conflictFree_of_swallows hwf hswallows hfree

end TokenLint.Codemod
