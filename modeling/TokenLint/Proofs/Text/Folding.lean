import TokenLint.Text.Folding

/-!
# Letters in any case

Two characters are the same letter when they fold to the same character. All that are the same
letter as a character are in its orbit, so of one letter there are few.
-/
namespace TokenLint.Text.Folding

/-- Different in nothing but case, by simple folding. -/
def SameLetter (c d : Char) : Prop := fold c.toNat = fold d.toNat

theorem Run.shift_nonneg {r : Run} {n : Nat} (hr : r ∈ runs) (hn : r.covers n) :
    0 ≤ (n : Int) + r.shift := by
  have hall : ∀ r ∈ runs, 0 ≤ (r.first : Int) + r.shift := by decide +kernel
  have hfirst : r.first ≤ n := by
    rw [Run.covers, Bool.and_eq_true, Bool.and_eq_true, decide_eq_true_eq] at hn
    exact hn.1.1
  have hstart := hall r hr
  omega

/-- What folds to a code point is that code point or one that a run takes there. -/
theorem eq_or_mem_preimages {n target : Nat} (h : fold n = target) :
    n = target ∨ n ∈ preimages target := by
  rw [fold] at h
  split at h
  · rename_i r hfind
    have hr := List.mem_of_find?_eq_some hfind
    have hcovers := List.find?_some hfind
    have hshift := Run.shift_nonneg hr hcovers
    have hback : ((target : Int) - r.shift).toNat = n := by omega
    refine .inr (List.mem_filterMap.mpr ⟨r, hr, ?_⟩)
    dsimp only
    rw [hback, hcovers, h, beq_self_eq_true]
    rfl
  · exact .inl h

/-- What holds of the few characters in an orbit holds of all that are the same letter. -/
theorem SameLetter.of_orbit {P : Char → Prop} {c d : Char} (h : SameLetter c d)
    (hall : ∀ n ∈ orbit c, P (Char.ofNat n)) : P d := by
  have hone := hall d.toNat (List.mem_cons.mpr (eq_or_mem_preimages h.symm))
  rwa [Char.ofNat_toNat] at hone

end TokenLint.Text.Folding
