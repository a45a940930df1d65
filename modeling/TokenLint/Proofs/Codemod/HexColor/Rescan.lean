import Mathlib.Data.List.Sublists
import TokenLint.Codemod.HexColor
import TokenLint.Proofs.Text.HexRun

/-!
# Scanning a text that has its tokens

A token has no `#` and begins with a letter that is no digit, so where it stands for a color it ends
the run of digits before it. A color before it may so cease to be one; none comes to be one.
-/
namespace TokenLint.Codemod.HexColor

open Text

/-! ### Pieces, one by one -/

theorem piecesFrom_eq (n : Nat) (cs : List Char) : piecesFrom n cs = pieces (cs.drop n) := by
  induction n generalizing cs with
  | zero => rfl
  | succ n ih =>
    cases cs with
    | nil => rfl
    | cons c cs => rw [piecesFrom, ih, List.drop_succ_cons]

theorem pieces_cons {c : Char} (hc : c ≠ '#') (cs : List Char) :
    pieces (c :: cs) = .plain c :: pieces cs := by
  rw [pieces, piecesFrom, if_neg (by simpa using hc)]
  rfl

theorem pieces_append {as : List Char} (has : '#' ∉ as) (bs : List Char) :
    pieces (as ++ bs) = as.map .plain ++ pieces bs := by
  induction as with
  | nil => rfl
  | cons a as ih =>
    obtain ⟨ha, has⟩ := not_or.mp (List.mem_cons.not.mp has)
    rw [List.cons_append, pieces_cons (Ne.symm ha), ih has, List.map_cons, List.cons_append]

theorem pieces_hash {cs : List Char} (h : digitCount? cs = none) :
    pieces ('#' :: cs) = .plain '#' :: pieces cs := by
  rw [pieces, piecesFrom, if_pos (by decide), h]
  rfl

/-- How many digits a color has is settled by the run of digits and what follows it. -/
theorem digitCount?_append {ds : List Char} (hds : ∀ d ∈ ds, isHex d) {rest : List Char}
    (hrest : ∀ c ∈ rest.head?, isHex c = false) : digitCount? (ds ++ rest) =
      if 3 ≤ ds.length ∧ ds.length ≤ 8 ∧ rest.head?.any isWord = false then some ds.length
      else none := by
  rw [digitCount?, takeWhile_isHex_append hds hrest, List.drop_left]
  simp only [Bool.and_eq_true, decide_eq_true_eq, Bool.not_eq_true', and_assoc]

/-- The digits of a color, and what follows it. -/
theorem exists_color {cs : List Char} {n : Nat} (h : digitCount? cs = some n) :
    ∃ ds rest, cs = ds ++ rest ∧ n = ds.length ∧ '#' ∉ ds := by
  obtain ⟨ds, rest, rfl, hds, hrest⟩ := exists_digits cs
  rw [digitCount?_append hds hrest] at h
  split at h
  · exact ⟨ds, rest, rfl, (Option.some.inj h).symm, hash_not_mem hds⟩
  · cases h

theorem pieces_color {ds rest : List Char} (h : digitCount? (ds ++ rest) = some ds.length) :
    pieces ('#' :: (ds ++ rest)) = .color ds :: pieces rest := by
  rw [pieces, piecesFrom, if_pos (by decide), h]
  dsimp only
  rw [piecesFrom_eq, List.take_left, List.drop_left]

/-- A text is read character by character, and color by color. -/
theorem scan_induction {P : List Char → Prop} (nil : P [])
    (other : ∀ c cs, c ≠ '#' → P cs → P (c :: cs))
    (hash : ∀ cs, digitCount? cs = none → P cs → P ('#' :: cs))
    (color : ∀ ds rest, digitCount? (ds ++ rest) = some ds.length → '#' ∉ ds → P rest →
      P ('#' :: (ds ++ rest)))
    (cs : List Char) : P cs := by
  induction hlength : cs.length using Nat.strong_induction_on generalizing cs with
  | _ length ih =>
    subst hlength
    cases cs with
    | nil => exact nil
    | cons c cs =>
      by_cases hc : c = '#'
      · subst hc
        cases h : digitCount? cs with
        | none => exact hash cs h (ih cs.length (by simp) cs rfl)
        | some n =>
          obtain ⟨ds, rest, rfl, rfl, hds⟩ := exists_color h
          have hshort : rest.length < ('#' :: (ds ++ rest)).length := by
            rw [List.length_cons, List.length_append]
            omega
          exact color ds rest h hds (ih rest.length hshort rest rfl)
      · exact other c cs hc (ih cs.length (by simp) cs rfl)

/-! ### The text with tokens -/

/-- The characters with tokens for the known colors. -/
def tokenized (cs : List Char) : List Char := (pieces cs).flatMap Piece.revised

theorem tokenized_append {as : List Char} (has : '#' ∉ as) (bs : List Char) :
    tokenized (as ++ bs) = as ++ tokenized bs := by
  rw [tokenized, pieces_append has, List.flatMap_append, List.flatMap_map]
  congr 1
  exact List.flatMap_singleton' as

theorem tokenized_cons {c : Char} (hc : c ≠ '#') (cs : List Char) :
    tokenized (c :: cs) = c :: tokenized cs := by
  have hone : '#' ∉ [c] := by simpa using hc.symm
  exact tokenized_append hone cs

theorem tokenized_hash {cs : List Char} (h : digitCount? cs = none) :
    tokenized ('#' :: cs) = '#' :: tokenized cs := by
  rw [tokenized, pieces_hash h]
  rfl

section
variable {ds rest : List Char} (h : digitCount? (ds ++ rest) = some ds.length)
include h

theorem tokenized_unknown (hnone : token? ds = none) :
    tokenized ('#' :: (ds ++ rest)) = '#' :: (ds ++ tokenized rest) := by
  rw [tokenized, pieces_color h, List.flatMap_cons, Piece.revised, hnone]
  rfl

theorem tokenized_known {token : String} (hsome : token? ds = some token) :
    tokenized ('#' :: (ds ++ rest)) = token.toList ++ tokenized rest := by
  rw [tokenized, pieces_color h, List.flatMap_cons, Piece.revised, hsome]
  rfl

end

/-- Where no color is known there is nothing to replace. -/
theorem tokenized_eq_self {cs : List Char} (h : ∀ p ∈ pieces cs, p.isKnown = false) :
    tokenized cs = cs := by
  induction cs using scan_induction with
  | nil => rfl
  | other c cs hc ih =>
    rw [pieces_cons hc] at h
    rw [tokenized_cons hc, ih (List.forall_mem_cons.mp h).2]
  | hash cs hnone ih =>
    rw [pieces_hash hnone] at h
    rw [tokenized_hash hnone, ih (List.forall_mem_cons.mp h).2]
  | color ds rest hsome hds ih =>
    rw [pieces_color hsome] at h
    obtain ⟨hknown, hrest⟩ := List.forall_mem_cons.mp h
    rw [tokenized_unknown hsome (by simpa [Piece.isKnown] using hknown), ih hrest]

/-- What is known of all tokens. -/
theorem token_shape {digits : List Char} {token : String} (h : token? digits = some token) :
    token.toList.head? = some 'h' ∧ '#' ∉ token.toList := by
  have hall : ∀ p ∈ table, p.2.toList.head? = some 'h' ∧ '#' ∉ p.2.toList := by decide +kernel
  rw [token?, List.lookup_eq_some_iff] at h
  obtain ⟨front, back, htable, -⟩ := h
  exact hall (spelled digits, token) (by simp [htable])

/-- At the front of a text a token may come for a `#`; anything else stays. -/
theorem head?_tokenized (cs : List Char) :
    (tokenized cs).head? = cs.head? ∨ (tokenized cs).head? = some 'h' := by
  induction cs using scan_induction with
  | nil => exact .inl rfl
  | other c cs hc => exact .inl (by rw [tokenized_cons hc]; rfl)
  | hash cs hnone => exact .inl (by rw [tokenized_hash hnone]; rfl)
  | color ds rest hsome =>
    cases htoken : token? ds with
    | none => exact .inl (by rw [tokenized_unknown hsome htoken]; rfl)
    | some token =>
      obtain ⟨hhead, -⟩ := token_shape htoken
      exact .inr (by rw [tokenized_known hsome htoken, List.head?_append, hhead, Option.some_or])

/-- A color behind a `#` stays as long as it is, or is none any more. -/
theorem digitCount?_tokenized (cs : List Char) :
    digitCount? (tokenized cs) = digitCount? cs ∨ digitCount? (tokenized cs) = none := by
  obtain ⟨ds, rest, rfl, hds, hrest⟩ := exists_digits cs
  rw [tokenized_append (hash_not_mem hds), digitCount?_append hds hrest]
  rcases head?_tokenized rest with hhead | hhead
  · rw [digitCount?_append hds (by rwa [hhead]), hhead]
    exact .inl rfl
  · have hend : ∀ c ∈ (tokenized rest).head?, isHex c = false := by
      intro c hc
      obtain rfl := Option.some.inj (hhead.symm.trans hc)
      decide
    rw [digitCount?_append hds hend, hhead, if_neg]
    · exact .inr rfl
    · rintro ⟨-, -, hword⟩
      revert hword
      decide +kernel

theorem filter_isColor_append {as : List Char} (has : '#' ∉ as) (bs : List Char) :
    (pieces (as ++ bs)).filter Piece.isColor = (pieces bs).filter Piece.isColor := by
  rw [pieces_append has, List.filter_append, List.filter_eq_nil_iff.mpr, List.nil_append]
  intro p hp
  obtain ⟨c, -, rfl⟩ := List.mem_map.mp hp
  exact Bool.false_ne_true

/-- The colors of a text that has its tokens are unknown ones of the text before, in order. -/
theorem colors_tokenized (cs : List Char) :
    ((pieces (tokenized cs)).filter Piece.isColor).Sublist
      ((pieces cs).filter fun p => p.isColor && !p.isKnown) := by
  induction cs using scan_induction with
  | nil => exact .slnil
  | other c cs hc ih =>
    rw [tokenized_cons hc, pieces_cons hc, pieces_cons hc]
    exact ih
  | hash cs hnone ih =>
    have hstill : digitCount? (tokenized cs) = none := by
      have hsame := digitCount?_tokenized cs
      rwa [hnone, or_self] at hsame
    rw [tokenized_hash hnone, pieces_hash hstill, pieces_hash hnone]
    exact ih
  | color ds rest hsome hds ih =>
    rw [pieces_color hsome]
    cases htoken : token? ds with
    | some token =>
      rw [tokenized_known hsome htoken, filter_isColor_append (token_shape htoken).2,
        List.filter_cons_of_neg (by simp [Piece.isKnown, htoken])]
      exact ih
    | none =>
      rw [tokenized_unknown hsome htoken,
        List.filter_cons_of_pos (by simp [Piece.isColor, Piece.isKnown, htoken])]
      have hsame := digitCount?_tokenized (ds ++ rest)
      rw [tokenized_append hds, hsome] at hsame
      rcases hsame with hstays | hgone
      · rw [pieces_color hstays, List.filter_cons_of_pos rfl]
        exact ih.cons_cons _
      · -- a token behind the digits goes on with the word
        rw [pieces_hash hgone, List.filter_cons_of_neg (by simp [Piece.isColor]),
          filter_isColor_append hds]
        exact ih.cons _

/-- A color that is left was there before, and no token is known for it. -/
theorem color_of_mem_tokenized {cs digits : List Char}
    (h : .color digits ∈ pieces (tokenized cs)) :
    .color digits ∈ pieces cs ∧ token? digits = none := by
  have hmem := (colors_tokenized cs).mem (List.mem_filter.mpr ⟨h, rfl⟩)
  obtain ⟨hbefore, hunknown⟩ := List.mem_filter.mp hmem
  refine ⟨hbefore, ?_⟩
  simpa [Piece.isColor, Piece.isKnown] using hunknown

end TokenLint.Codemod.HexColor
