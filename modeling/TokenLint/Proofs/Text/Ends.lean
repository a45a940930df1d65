import Mathlib.Data.List.Infix
import Mathlib.Data.List.TakeWhile
import TokenLint.Text

/-!
# What a text begins and ends with

A text ends with a part up to blanks if the part, then blanks, are the last of it. Blanks that are
dropped at the ends of a text are in no part of it that has none. What is left of a text without
them has none at its own ends, and more blanks around the text change nothing of it.
-/
namespace TokenLint.Text

theorem startsWith_iff {cs part : List Char} : startsWith cs part ↔ part <+: cs := by
  fun_induction startsWith cs part with
  | case1 => simp
  | case2 => simp
  | case3 c cs p ps ih => rw [Bool.and_eq_true, beq_iff_eq, ih, List.cons_prefix_cons, eq_comm]

theorem endsWith_iff {cs part : List Char} : endsWith cs part ↔ part <:+ cs := by
  rw [endsWith, startsWith_iff, List.reverse_prefix]

theorem contains_iff {cs part : List Char} : contains cs part ↔ part <:+: cs := by
  induction cs with
  | nil => simp [contains]
  | cons c cs ih => rw [contains, Bool.or_eq_true, startsWith_iff, ih, List.infix_cons_iff]

theorem bne_of_not_mem {x : Char} {cs : List Char} (h : x ∉ cs) : ∀ c ∈ cs, (c != x) = true :=
  fun _ hc => bne_iff_ne.mpr fun heq => h (heq ▸ hc)

variable {p : Char → Bool}

theorem dropEndWhile_append (cs : List Char) {tail : List Char} (h : ∀ c ∈ tail, p c) :
    dropEndWhile p (cs ++ tail) = dropEndWhile p cs := by
  rw [dropEndWhile, List.reverse_append, List.dropWhile_append_of_pos, dropEndWhile]
  simpa using h

theorem dropEndWhile_concat (cs : List Char) {c : Char} (h : p c = false) :
    dropEndWhile p (cs ++ [c]) = cs ++ [c] := by
  rw [dropEndWhile, List.reverse_append, List.reverse_singleton, List.singleton_append,
    List.dropWhile_cons_of_neg (by simp [h]), List.reverse_cons, List.reverse_reverse]

theorem exists_dropEndWhile (p : Char → Bool) (cs : List Char) :
    ∃ tail, cs = dropEndWhile p cs ++ tail ∧ ∀ c ∈ tail, p c := by
  refine ⟨(cs.reverse.takeWhile p).reverse, ?_, fun c hc => ?_⟩
  · rw [dropEndWhile, ← List.reverse_append, List.takeWhile_append_dropWhile, List.reverse_reverse]
  · exact List.all_eq_true.mp List.all_takeWhile c (List.mem_reverse.mp hc)

/-- A part is not dropped if none of its characters is. -/
theorem infix_dropWhile {cs part : List Char} (h : part <:+: cs) (hpart : ∀ c ∈ part, p c = false) :
    part <:+: cs.dropWhile p := by
  induction cs with
  | nil => exact h
  | cons c cs ih =>
    cases hc : p c with
    | false => rwa [List.dropWhile_cons_of_neg (by simp [hc])]
    | true =>
      rw [List.dropWhile_cons_of_pos hc]
      rcases List.infix_cons_iff.mp h with hfirst | hlater
      · cases part with
        | nil => exact List.nil_infix
        | cons d part =>
          obtain ⟨rfl, -⟩ := List.cons_prefix_cons.mp hfirst
          exact absurd hc (by simp [hpart d List.mem_cons_self])
      · exact ih hlater

theorem infix_trimChars {cs part : List Char} (h : part <:+: cs)
    (hpart : ∀ c ∈ part, isBlank c = false) : part <:+: trimChars cs := by
  have hreversed := List.reverse_infix.mpr (infix_dropWhile h hpart)
  rw [trimChars, dropEndWhile, ← List.reverse_infix, List.reverse_reverse]
  exact infix_dropWhile hreversed fun c hc => hpart c (List.mem_reverse.mp hc)

/-- No blank at either end. -/
def Trimmed (cs : List Char) : Prop :=
  (∀ c ∈ cs.head?, isBlank c = false) ∧ ∀ c ∈ cs.getLast?, isBlank c = false

theorem dropWhile_eq_self {cs : List Char} (h : ∀ c ∈ cs.head?, p c = false) :
    cs.dropWhile p = cs := by
  cases cs with
  | nil => rfl
  | cons c cs => rw [List.dropWhile_cons_of_neg (by simp [h c rfl])]

theorem Trimmed.trimChars_eq {cs : List Char} (h : Trimmed cs) : trimChars cs = cs := by
  have hlast : ∀ c ∈ cs.reverse.head?, isBlank c = false := by
    rw [List.head?_reverse]
    exact h.2
  rw [trimChars, dropWhile_eq_self h.1, dropEndWhile, dropWhile_eq_self hlast,
    List.reverse_reverse]

theorem trimChars_eq_self {cs : List Char} (h : ∀ c ∈ cs, isBlank c = false) :
    trimChars cs = cs :=
  Trimmed.trimChars_eq
    ⟨fun c hc => h c (List.mem_of_head? hc), fun c hc => h c (List.mem_of_getLast? hc)⟩

/-- A text is what is left of it without the blanks at its ends, and those blanks. -/
theorem exists_trimChars (cs : List Char) : ∃ before after, cs = before ++ (trimChars cs ++ after) ∧
    (∀ c ∈ before, isBlank c) ∧ ∀ c ∈ after, isBlank c := by
  obtain ⟨after, hafter, hblank⟩ := exists_dropEndWhile isBlank (cs.dropWhile isBlank)
  refine ⟨cs.takeWhile isBlank, after, ?_, List.all_eq_true.mp List.all_takeWhile, hblank⟩
  rw [trimChars, ← hafter, List.takeWhile_append_dropWhile]

/-- Blanks around a text do not matter to what is left without them. -/
theorem trimChars_blanks {before after : List Char} (cs : List Char)
    (hbefore : ∀ c ∈ before, isBlank c) (hafter : ∀ c ∈ after, isBlank c) :
    trimChars (before ++ (cs ++ after)) = trimChars cs := by
  rw [trimChars, List.dropWhile_append_of_pos hbefore, List.dropWhile_append]
  split
  · -- all is blank
    rename_i hcs
    rw [trimChars, List.isEmpty_iff.mp hcs, List.dropWhile_eq_nil_iff.mpr hafter]
  · rw [dropEndWhile_append _ hafter, trimChars]

theorem trimmed_trimChars (cs : List Char) : Trimmed (trimChars cs) := by
  have hlast : ∀ c ∈ (trimChars cs).getLast?, isBlank c = false := by
    intro c hc
    have hnot := List.head?_dropWhile_not isBlank (cs.dropWhile isBlank).reverse
    rw [trimChars, dropEndWhile, List.getLast?_reverse] at hc
    rw [Option.mem_def.mp hc] at hnot
    simpa using hnot
  refine ⟨fun c hc => ?_, hlast⟩
  -- what is dropped at the end leaves the first character in place
  obtain ⟨after, hafter, -⟩ := exists_dropEndWhile isBlank (cs.dropWhile isBlank)
  obtain ⟨rest, hrest⟩ := List.head?_eq_some_iff.mp hc
  have hkept : cs.dropWhile isBlank = (c :: rest) ++ after := hrest ▸ hafter
  have hfirst : (cs.dropWhile isBlank).head? = some c := by
    rw [hkept, List.cons_append, List.head?_cons]
  have hnot := List.head?_dropWhile_not isBlank cs
  rw [hfirst] at hnot
  simpa using hnot

theorem trimChars_trimChars (cs : List Char) : trimChars (trimChars cs) = trimChars cs :=
  (trimmed_trimChars cs).trimChars_eq

theorem trimChars_eq_nil_iff {cs : List Char} : trimChars cs = [] ↔ ∀ c ∈ cs, isBlank c := by
  constructor
  · intro h
    obtain ⟨before, after, hcs, hbefore, hafter⟩ := exists_trimChars cs
    rw [h, List.nil_append] at hcs
    rw [hcs]
    exact List.forall_mem_append.mpr ⟨hbefore, hafter⟩
  · intro h
    have hblanks := trimChars_blanks [] h (List.forall_mem_nil _)
    rwa [List.append_nil, List.append_nil] at hblanks

/-- What a text begins with stays if it is no blank. -/
theorem head?_trimChars {c : Char} (h : isBlank c = false) (cs : List Char) :
    (trimChars (c :: cs)).head? = some c := by
  obtain ⟨before, after, hcs, hbefore, hafter⟩ := exists_trimChars (c :: cs)
  cases before with
  | cons d before =>
    obtain ⟨rfl, -⟩ := List.cons.inj hcs
    exact absurd (hbefore c List.mem_cons_self) (by simp [h])
  | nil =>
    rw [List.nil_append] at hcs
    cases htrim : trimChars (c :: cs) with
    | nil =>
      rw [htrim, List.nil_append] at hcs
      exact absurd (hafter c (hcs ▸ List.mem_cons_self)) (by simp [h])
    | cons d t =>
      rw [htrim] at hcs
      rw [List.head?_cons, (List.cons.inj hcs).1]

/-- Trimmed, a text ends with a part that ends in no blank. -/
theorem endsWith_trimEnd_iff {s : String} {part : List Char} {last : Char}
    (hlast : isBlank last = false) :
    endsWith (trimEnd s).toList (part ++ [last]) ↔ ∃ front blanks,
      s.toList = front ++ (part ++ [last]) ++ blanks ∧ ∀ c ∈ blanks, isBlank c := by
  rw [trimEnd, String.toList_ofList, endsWith_iff]
  constructor
  · rintro ⟨front, hfront⟩
    obtain ⟨blanks, hs, hblanks⟩ := exists_dropEndWhile isBlank s.toList
    exact ⟨front, blanks, by rw [hfront, ← hs], hblanks⟩
  · rintro ⟨front, blanks, hs, hblanks⟩
    refine ⟨front, ?_⟩
    rw [hs, dropEndWhile_append _ hblanks, ← List.append_assoc, dropEndWhile_concat _ hlast]

end TokenLint.Text
