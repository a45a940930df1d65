import TokenLint.Proofs.Json.Alike

/-!
# Strings do not depend on the space behind them

Two texts that are alike are read side by side: either both readers fail, or both give the same
and stop at texts that are alike again. Inside of a string the texts are the same, so escapes are
read alike up to the closing quote.
-/
namespace TokenLint.Json.Reader

/-- Two readings that both fail, or give the same and leave texts that are related. -/
def Agree {α : Type} (R : List Char → List Char → Prop) :
    Except FaultAt (α × Cursor) → Except FaultAt (α × Cursor) → Prop
  | .ok (v, c), .ok (w, d) => v = w ∧ R c.rest d.rest
  | .error _, .error _ => True
  | _, _ => False

variable {α β : Type} {R S : List Char → List Char → Prop} {n : Nat} {c d : Cursor}
  {as bs : List Char}

theorem agree_ok (v : α) (h : R c.rest d.rest) : Agree R (.ok (v, c)) (.ok (v, d)) := ⟨rfl, h⟩

theorem agree_error (e f : FaultAt) : Agree (α := α) R (.error e) (.error f) := trivial

theorem agree_behind (f : Fault) : Agree (α := α) R (behind f c) (behind f d) := trivial

theorem agree_ahead (f : Fault) : Agree (α := α) R (ahead f c) (ahead f d) := trivial

theorem Agree.bind {x y : Except FaultAt (α × Cursor)}
    {f g : α × Cursor → Except FaultAt (β × Cursor)} (h : Agree R x y)
    (hnext : ∀ v c d, R c.rest d.rest → Agree S (f (v, c)) (g (v, d))) :
    Agree S (x >>= f) (y >>= g) := by
  match x, y, h with
  | .ok (v, c), .ok (_, d), ⟨rfl, hrest⟩ => exact hnext v c d hrest
  | .error e, .error e', _ => exact agree_error e e'

theorem Agree.mono {x y : Except FaultAt (α × Cursor)} (h : Agree R x y)
    (hrest : ∀ as bs, R as bs → S as bs) : Agree S x y := by
  match x, y, h with
  | .ok (v, c), .ok (_, d), ⟨rfl, h⟩ => exact agree_ok v (hrest _ _ h)
  | .error e, .error e', _ => exact agree_error e e'

theorem Agree.map {x y : Except FaultAt (α × Cursor)} (h : Agree R x y) (f : α → β) :
    Agree R (x.map fun (v, c) => (f v, c)) (y.map fun (v, c) => (f v, c)) := by
  match x, y, h with
  | .ok (v, c), .ok (_, d), ⟨rfl, h⟩ => exact agree_ok (f v) h
  | .error e, .error e', _ => exact agree_error e e'

/-! ### Escapes -/

/-- Two texts that begin with the second character of an escape in one string. -/
def AlikeEscape (n : Nat) (as bs : List Char) : Prop :=
  ∃ x as' bs', as = x :: as' ∧ bs = x :: bs' ∧ AlikeString n as' bs'

theorem take_of_alikeString (h : AlikeString n as bs) (k : Nat) :
    as.take k = bs.take k ∧ AlikeString n (as.drop k) (bs.drop k) ∨
      (as.take k).all Text.isHex = false ∧ (bs.take k).all Text.isHex = false := by
  induction k generalizing n as bs with
  | zero => exact .inl ⟨rfl, h⟩
  | succ k ih =>
    cases h with
    | close rest => exact .inr ⟨rfl, rfl⟩
    | escaped rest => exact .inr ⟨rfl, rfl⟩
    | char quote backslash rest =>
      rcases ih rest with ⟨heq, hdrop⟩ | ⟨hleft, hright⟩
      · exact .inl ⟨by simp [heq], hdrop.mono (Nat.le_succ _)⟩
      · exact .inr ⟨by simp [hleft], by simp [hright]⟩

theorem agree_hexUnit (h : AlikeString n c.rest d.rest) :
    Agree (AlikeString n) (hexUnit c) (hexUnit d) := by
  unfold hexUnit
  rcases take_of_alikeString h 4 with ⟨heq, hdrop⟩ | ⟨hleft, hright⟩
  · simp only [heq]
    split
    · exact agree_ok _ hdrop
    · split <;> split <;> exact agree_error _ _
  · simp only [hleft, hright, Bool.and_false]
    simp only [Bool.false_eq_true, if_false]
    split <;> split <;> exact agree_error _ _

theorem agree_pairMark_backslash (h : AlikeString n c.rest d.rest) :
    Agree (AlikeEscape n) (pairMark '\\' c) (pairMark '\\' d) := by
  obtain ⟨cs, p⟩ := c
  obtain ⟨ds, q⟩ := d
  cases h with
  | close rest => exact agree_error _ _
  | escaped rest => exact agree_ok _ ⟨_, _, _, rfl, rfl, rest.mono (by omega)⟩
  | char quote backslash rest =>
    simp only [pairMark, beq_iff_eq, backslash, if_false]
    exact agree_error _ _

theorem agree_pairMark_escaped (x : Char) (h : AlikeEscape n c.rest d.rest) :
    Agree (AlikeString n) (pairMark x c) (pairMark x d) := by
  obtain ⟨cs, p⟩ := c
  obtain ⟨ds, q⟩ := d
  obtain ⟨y, as, bs, rfl, rfl, hrest⟩ := h
  simp only [pairMark]
  split
  · exact agree_ok _ hrest
  · exact agree_error _ _

theorem agree_unicodeEscape (h : AlikeString n c.rest d.rest) :
    Agree (AlikeString n) (unicodeEscape c) (unicodeEscape d) := by
  refine (agree_hexUnit h).bind fun unit c d h => ?_
  dsimp only
  split
  · exact agree_behind _
  · split
    · exact agree_ok _ h
    · refine (agree_pairMark_backslash h).bind fun _ c d h => ?_
      refine (agree_pairMark_escaped 'u' h).bind fun _ c d h => ?_
      refine (agree_hexUnit h).bind fun low c d h => ?_
      dsimp only
      split
      · exact agree_behind _
      · exact agree_ok _ h

theorem agree_escape (h : AlikeEscape n c.rest d.rest) :
    Agree (AlikeString n) (escape c) (escape d) := by
  obtain ⟨cs, p⟩ := c
  obtain ⟨ds, q⟩ := d
  obtain ⟨x, as, bs, rfl, rfl, hrest⟩ := h
  have hnext : AlikeString n (Cursor.mk as (p + 1)).rest (Cursor.mk bs (q + 1)).rest := hrest
  simp only [escape]
  split
  case h_9 => exact agree_unicodeEscape hnext
  case h_10 => exact agree_error _ _
  all_goals exact agree_ok _ hnext

/-! ### Whole strings -/

theorem agree_stringRest {k l : Nat} (h : AlikeString n c.rest d.rest) (hk : n ≤ k) (hl : n ≤ l)
    (done : List Char) : Agree (Alike n) (stringRest k done c) (stringRest l done d) := by
  induction k generalizing n c d l done with
  | zero =>
    obtain rfl : n = 0 := by omega
    cases h
  | succ k ih =>
    obtain ⟨cs, p⟩ := c
    obtain ⟨ds, q⟩ := d
    cases l with
    | zero =>
      obtain rfl : n = 0 := by omega
      cases h
    | succ l =>
      cases h with
      | close rest => exact agree_ok _ (rest.mono (Nat.le_succ _))
      | @escaped n x as bs rest =>
        refine Agree.bind (agree_escape ⟨x, as, bs, rfl, rfl, rest⟩) fun y c d h => ?_
        exact (ih h (by omega) (by omega) _).mono fun _ _ h => h.mono (by omega)
      | @char n x as bs quote backslash rest =>
        have hnext : AlikeString n (Cursor.mk as (p + x.utf8Size)).rest
          (Cursor.mk bs (q + x.utf8Size)).rest := rest
        simp only [stringRest, beq_iff_eq, quote, backslash, if_false]
        split
        · exact agree_error _ _
        · exact (ih hnext (by omega) (by omega) _).mono fun _ _ h => h.mono (by omega)

theorem agree_string (h : AlikeString n c.rest d.rest) :
    Agree (Alike n) (string c) (string d) := by
  obtain ⟨k, hk, hc, hd, htight⟩ := h.tight
  exact (agree_stringRest htight hc hd []).mono fun _ _ h => h.mono hk

end TokenLint.Json.Reader
