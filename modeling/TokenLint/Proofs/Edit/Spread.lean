import Mathlib.Data.List.Pairwise
import TokenLint.Proofs.Edit.ConflictFree
import TokenLint.Proofs.Source.Nesting

/-!
# Plans whose edits are spread

The edits of a spread plan fit the text and are apart, each from each. Plans are put together:
edits at single nodes make a spread plan when those of a node stay within it and away from the
nodes below it that have edits of their own.
-/
namespace TokenLint.EditPlan

open Text Source

/-- All edits fit the text, and no two overlap. -/
structure Spread (cs : List Char) (plan : EditPlan) : Prop where
  fits : ∀ e ∈ plan, IsRange cs e.span
  apart : plan.Pairwise fun a b => a.span.Apart b.span

/-- A spread plan within a range. -/
structure Placed (cs : List Char) (span : Span) (plan : EditPlan) : Prop extends
    Spread cs plan where
  within : ∀ e ∈ plan, e.span.Within span

variable {cs : List Char} {plan : EditPlan}

theorem Spread.conflictFree (h : plan.Spread cs) : plan.ConflictFree := h.apart.imp Or.inl

theorem spread_nil : Spread cs [] := ⟨by simp, .nil⟩

theorem placed_nil (span : Span) : Placed cs span [] := ⟨spread_nil, by simp⟩

theorem placed_singleton {span : Span} {e : Edit} (hfit : IsRange cs e.span)
    (hwithin : e.span.Within span) : Placed cs span [e] := by
  refine ⟨⟨?_, List.pairwise_singleton _ e⟩, ?_⟩
  · simpa using hfit
  · simpa using hwithin

theorem spread_append {first second : EditPlan} (h₁ : first.Spread cs) (h₂ : second.Spread cs)
    (hapart : ∀ a ∈ first, ∀ b ∈ second, a.span.Apart b.span) : Spread cs (first ++ second) := by
  refine ⟨fun e he => ?_, List.pairwise_append.mpr ⟨h₁.apart, h₂.apart, hapart⟩⟩
  rcases List.mem_append.mp he with he | he
  · exact h₁.fits e he
  · exact h₂.fits e he

theorem Placed.cons {span : Span} {e : Edit} (h : plan.Placed cs span) (hfit : IsRange cs e.span)
    (hwithin : e.span.Within span) (hapart : ∀ a ∈ plan, e.span.Apart a.span) :
    Placed cs span (e :: plan) := by
  refine ⟨spread_append (placed_singleton hfit hwithin).toSpread h.toSpread ?_, ?_⟩
  · simpa using hapart
  · intro a ha
    rcases List.mem_cons.mp ha with rfl | ha
    · exact hwithin
    · exact h.within a ha

/-- Edits at nodes that come one after another, or where the later node is clear of the earlier
node's edits. -/
theorem spread_flatMap {ι : Type} {is : List ι} (node : ι → Node) {edits : ι → EditPlan}
    (placed : ∀ i ∈ is, (edits i).Placed cs (node i).span)
    (clear : is.Pairwise fun i j => (node i).stop ≤ (node j).start ∨
      (edits j ≠ [] → ∀ a ∈ edits i, a.span.Apart (node j).span)) :
    Spread cs (is.flatMap edits) := by
  refine ⟨fun e he => ?_, List.pairwise_flatMap.mpr ⟨fun i hi => (placed i hi).apart, ?_⟩⟩
  · obtain ⟨i, hi, he⟩ := List.mem_flatMap.mp he
    exact (placed i hi).fits e he
  · refine clear.imp_of_mem fun hi hj hij a ha b hb => ?_
    have haw := (placed _ hi).within a ha
    have hbw := (placed _ hj).within b hb
    rcases hij with hbefore | hclear
    · exact Or.inl (Nat.le_trans haw.2 (Nat.le_trans hbefore hbw.1))
    · exact (hclear (List.ne_nil_of_mem hb) a ha).mono (Span.Within.refl _) hbw

end TokenLint.EditPlan
