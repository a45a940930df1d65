import Mathlib.Data.List.Nodup
import Mathlib.Data.List.Perm.Basic
import TokenLint.Text

/-!
# Words, and texts without repeats

Words with one blank between them are read back as they are. Which words a text has, and which texts
are the different ones of a list, is also said without the functions that find them.
-/
namespace TokenLint.Text

theorem mem_distinct {x : String} {xs : List String} : x ∈ distinct xs ↔ x ∈ xs := by
  induction xs with
  | nil => rfl
  | cons y ys ih =>
    rw [distinct, List.mem_cons, List.mem_cons, List.mem_filter, ih]
    by_cases hxy : x = y
    · simp [hxy]
    · simp [hxy]

theorem nodup_distinct (xs : List String) : (distinct xs).Nodup := by
  induction xs with
  | nil => exact List.nodup_nil
  | cons y ys ih =>
    rw [distinct, List.nodup_cons]
    exact ⟨by simp, ih.filter _⟩

/-- The different texts of a list stand in the order in which each of them appears first. -/
structure FirstSeen (xs ys : List String) : Prop where
  mem_iff : ∀ x, x ∈ ys ↔ x ∈ xs
  ordered : ys.Pairwise fun x y => xs.idxOf x < xs.idxOf y

theorem firstSeen_distinct (xs : List String) : FirstSeen xs (distinct xs) := by
  refine ⟨fun _ => mem_distinct, ?_⟩
  induction xs with
  | nil => exact .nil
  | cons x xs ih =>
    have hlater : ∀ y ∈ (distinct xs).filter (· != x), (x :: xs).idxOf y = xs.idxOf y + 1 := by
      intro y hy
      have hne : y ≠ x := by simpa using (List.mem_filter.mp hy).2
      exact List.idxOf_cons_ne xs hne.symm
    rw [distinct, List.pairwise_cons]
    refine ⟨fun y hy => ?_, ?_⟩
    · rw [List.idxOf_cons_self, hlater y hy]
      exact Nat.succ_pos _
    · refine (ih.filter _).imp_of_mem fun {y z} hy hz hlt => ?_
      rw [hlater y hy, hlater z hz]
      exact Nat.succ_lt_succ hlt

theorem FirstSeen.nodup {xs ys : List String} (h : FirstSeen xs ys) : ys.Nodup := by
  refine List.Pairwise.imp (S := (· ≠ ·)) (fun {x y} hlt hxy => ?_) h.ordered
  rw [hxy] at hlt
  exact Nat.lt_irrefl _ hlt

theorem FirstSeen.eq_distinct {xs ys : List String} (h : FirstSeen xs ys) : ys = distinct xs := by
  have hperm : ys.Perm (distinct xs) := by
    rw [List.perm_ext_iff_of_nodup h.nodup (nodup_distinct xs)]
    intro x
    rw [h.mem_iff, mem_distinct]
  refine hperm.eq_of_pairwise (fun x y _ _ hxy hyx => ?_) h.ordered (firstSeen_distinct xs).ordered
  exact absurd (Nat.lt_trans hxy hyx) (Nat.lt_irrefl _)

theorem distinct_of_nodup {xs : List String} (h : xs.Nodup) : distinct xs = xs := by
  induction xs with
  | nil => rfl
  | cons x xs ih =>
    obtain ⟨hx, hxs⟩ := List.nodup_cons.mp h
    rw [distinct, ih hxs, List.filter_eq_self.mpr]
    intro y hy
    exact bne_iff_ne.mpr fun hyx => hx (hyx ▸ hy)

/-- How many different texts there are depends on which occur. -/
theorem length_distinct_congr {xs ys : List String} (h : ∀ x, x ∈ xs ↔ x ∈ ys) :
    (distinct xs).length = (distinct ys).length := by
  refine List.Perm.length_eq ?_
  rw [List.perm_ext_iff_of_nodup (nodup_distinct xs) (nodup_distinct ys)]
  intro x
  rw [mem_distinct, mem_distinct, h]

/-! ### Words -/

/-- Some characters, and no blank among them. -/
def IsWord (s : String) : Prop := s.toList ≠ [] ∧ ∀ c ∈ s.toList, isBlank c = false

theorem wordsFrom_append {cs : List Char} (h : ∀ c ∈ cs, isBlank c = false)
    (rest word : List Char) :
    wordsFrom (cs ++ rest) word = wordsFrom rest (cs.reverse ++ word) := by
  induction cs generalizing word with
  | nil => rfl
  | cons c cs ih =>
    obtain ⟨hc, hcs⟩ := List.forall_mem_cons.mp h
    rw [List.cons_append, wordsFrom, hc, if_neg Bool.false_ne_true, ih hcs, List.reverse_cons,
      List.append_assoc, List.singleton_append]

theorem mem_wordsFrom {cs word w : List Char} (hword : ∀ c ∈ word, isBlank c = false)
    (h : w ∈ wordsFrom cs word) : w ≠ [] ∧ ∀ c ∈ w, isBlank c = false := by
  have hrun : ∀ {run : List Char}, run ≠ [] → (∀ c ∈ run, isBlank c = false) →
      run.reverse ≠ [] ∧ ∀ c ∈ run.reverse, isBlank c = false := by
    intro run hne hrun
    simpa using ⟨hne, hrun⟩
  fun_induction wordsFrom cs word with
  | case1 => cases h
  | case2 word hne =>
    obtain rfl := List.mem_singleton.mp h
    exact hrun hne hword
  | case3 word c cs hc hempty ih => exact ih (by simp) h
  | case4 word c cs hc hne ih =>
    rcases List.mem_cons.mp h with rfl | h
    · exact hrun (by simpa using hne) hword
    · exact ih (by simp) h
  | case5 word c cs hc ih =>
    refine ih (List.forall_mem_cons.mpr ⟨by simpa using hc, hword⟩) h

theorem isWord_of_mem_words {text w : String} (h : w ∈ words text) : IsWord w := by
  obtain ⟨cs, hcs, rfl⟩ := List.mem_map.mp h
  have hword := mem_wordsFrom (by simp) hcs
  rwa [IsWord, String.toList_ofList]

theorem words_of_isWord {w : String} (h : IsWord w) : words w = [w] := by
  have hall := wordsFrom_append h.2 [] []
  have hne : w.toList.reverse ≠ [] := by simpa using h.1
  rw [List.append_nil, List.append_nil, wordsFrom] at hall
  · rw [words, hall, List.map_singleton, List.reverse_reverse, String.ofList_toList]
  · exact hne

theorem words_append_blank {w : String} (h : IsWord w) (rest : String) :
    words (w ++ " " ++ rest) = w :: words rest := by
  have hall := wordsFrom_append h.2 (' ' :: rest.toList) []
  have hblank : isBlank ' ' = true := by decide
  have hne : ¬w.toList.reverse.isEmpty = true := by simpa using h.1
  rw [List.append_nil, wordsFrom, if_pos hblank, if_neg hne] at hall
  have hsplit : (w ++ " " ++ rest).toList = w.toList ++ ' ' :: rest.toList := by
    simp [String.toList_append]
  rw [words, hsplit, hall, List.map_cons, List.reverse_reverse, String.ofList_toList]
  rfl

/-- Words with a blank between them are read back. -/
theorem words_intercalate {ws : List String} (h : ∀ w ∈ ws, IsWord w) :
    words (" ".intercalate ws) = ws := by
  induction ws with
  | nil => rfl
  | cons w ws ih =>
    obtain ⟨hw, hws⟩ := List.forall_mem_cons.mp h
    cases ws with
    | nil => rw [String.intercalate_singleton, words_of_isWord hw]
    | cons v vs => rw [String.intercalate_cons_cons, words_append_blank hw, ih hws]

/-- A part without some character lies before the character or behind it. -/
theorem infix_append_cons_iff {part as bs : List Char} {c : Char} (hc : c ∉ part) :
    part <:+: as ++ c :: bs ↔ part <:+: as ∨ part <:+: bs := by
  have hnone : ∀ {front : List Char}, front <+: c :: bs → (∀ d ∈ front, d ∈ part) → front = [] := by
    intro front hfront hsub
    cases front with
    | nil => rfl
    | cons d front =>
      obtain ⟨rfl, -⟩ := List.cons_prefix_cons.mp hfront
      exact absurd (hsub d List.mem_cons_self) hc
  constructor
  · intro h
    rcases List.infix_append_iff.mp h with has | hbs | ⟨front, tail, rfl, hfront, htail⟩
    · exact .inl has
    · rcases List.infix_cons_iff.mp hbs with hfirst | hbs
      · rw [hnone hfirst fun _ hd => hd]
        exact .inl List.nil_infix
      · exact .inr hbs
    · obtain rfl := hnone htail fun _ hd => List.mem_append_right _ hd
      rw [List.append_nil]
      exact .inl hfront.isInfix
  · rintro (has | hbs)
    · exact has.trans (List.prefix_append as _).isInfix
    · exact hbs.trans ((List.suffix_cons c bs).trans (List.suffix_append as _)).isInfix

/-- A part without blanks does not reach over the blank between two texts. -/
theorem infix_intercalate_iff {part : List Char} (hsome : part ≠ []) (hblank : ' ' ∉ part)
    (ws : List String) :
    part <:+: (" ".intercalate ws).toList ↔ ∃ w ∈ ws, part <:+: w.toList := by
  induction ws with
  | nil => simp [hsome]
  | cons w ws ih =>
    cases ws with
    | nil => simp
    | cons v vs =>
      have hsplit : (w ++ " " ++ " ".intercalate (v :: vs)).toList =
          w.toList ++ ' ' :: (" ".intercalate (v :: vs)).toList := by
        simp [String.toList_append]
      rw [String.intercalate_cons_cons, hsplit, infix_append_cons_iff hblank,
        List.exists_mem_cons_iff, ih]

/-! ### Words, told from the text -/

/-- A text falls into blanks and words, each of which ends at a blank or at the end of the text. -/
inductive Splits : List Char → List String → Prop
  | done : Splits [] []
  | blank {c : Char} {cs : List Char} {ws : List String} (blank : isBlank c) (more : Splits cs ws) :
      Splits (c :: cs) ws
  | word {w rest : List Char} {ws : List String} (some : w ≠ [])
      (solid : ∀ c ∈ w, isBlank c = false) (ended : ∀ c ∈ rest.head?, isBlank c)
      (more : Splits rest ws) : Splits (w ++ rest) (String.ofList w :: ws)

/-- The characters read of a word are in front of those not yet read. -/
theorem splits_wordsFrom {cs word : List Char} (hword : ∀ c ∈ word, isBlank c = false) :
    Splits (word.reverse ++ cs) ((wordsFrom cs word).map String.ofList) := by
  have hsolid : ∀ {run : List Char}, (∀ c ∈ run, isBlank c = false) →
      ∀ c ∈ run.reverse, isBlank c = false :=
    fun hrun c hc => hrun c (List.mem_reverse.mp hc)
  fun_induction wordsFrom cs word with
  | case1 => exact .done
  | case2 word hne => exact .word (by simpa using hne) (hsolid hword) (by simp) .done
  | case3 word c cs hc hempty ih =>
    obtain rfl := List.isEmpty_iff.mp hempty
    exact .blank hc (ih (by simp))
  | case4 word c cs hc hne ih =>
    exact .word (by simpa using hne) (hsolid hword) (by simpa using hc) (.blank hc (ih (by simp)))
  | case5 word c cs hc ih =>
    have hmore := ih (List.forall_mem_cons.mpr ⟨by simpa using hc, hword⟩)
    rwa [List.reverse_cons, List.append_assoc] at hmore

theorem wordsFrom_of_splits {cs : List Char} {ws : List String} (h : Splits cs ws) :
    (wordsFrom cs []).map String.ofList = ws := by
  induction h with
  | done => rfl
  | blank hc more ih => rwa [wordsFrom, if_pos hc]
  | @word w rest ws some solid ended more ih =>
    have hne : ¬w.reverse.isEmpty = true := by simpa using some
    rw [wordsFrom_append solid, List.append_nil]
    cases rest with
    | nil =>
      rw [wordsFrom, List.reverse_reverse, ← ih]
      · rfl
      · simpa using some
    | cons c rest =>
      have hc : isBlank c := ended c rfl
      rw [wordsFrom, if_pos hc] at ih ⊢
      rw [if_neg hne, List.map_cons, List.reverse_reverse]
      exact congrArg _ ih

theorem words_eq_iff {s : String} {ws : List String} : words s = ws ↔ Splits s.toList ws := by
  constructor
  · rintro rfl
    have hnone : ∀ c ∈ ([] : List Char), isBlank c = false := by simp
    exact splits_wordsFrom hnone
  · exact wordsFrom_of_splits

theorem infix_of_splits {cs : List Char} {ws : List String} (h : Splits cs ws) {w : String}
    (hw : w ∈ ws) : w.toList <:+: cs := by
  induction h with
  | done => cases hw
  | blank _ _ ih => exact (ih hw).trans (List.suffix_cons _ _).isInfix
  | @word v rest ws _ _ _ _ ih =>
    rcases List.mem_cons.mp hw with rfl | hw
    · rw [String.toList_ofList]
      exact (List.prefix_append v rest).isInfix
    · exact (ih hw).trans (List.suffix_append v rest).isInfix

theorem infix_of_mem_words {text w : String} (h : w ∈ words text) : w.toList <:+: text.toList :=
  infix_of_splits (words_eq_iff.mp rfl) h

end TokenLint.Text
