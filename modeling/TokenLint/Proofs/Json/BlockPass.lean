import TokenLint.Proofs.Json.Spelling

/-!
# Taking out comments from `/*` to `*/`
-/
namespace TokenLint.Json.Comment

open Reader

/-- Whether a text that begins inside or outside of a comment ends inside of one. -/
def endsInBlock : Bool → List Char → Bool
  | false, [] => false
  | false, '/' :: '*' :: cs => endsInBlock true cs
  | false, _ :: cs => endsInBlock false cs
  | true, [] => true
  | true, '*' :: '/' :: cs => endsInBlock false cs
  | true, _ :: cs => endsInBlock true cs

variable {xs cs held : List Char}

theorem blockFrom_none_cons {c : Char} (h : c = '/' → '*' ∉ cs.head?) :
    blockFrom none (c :: cs) = c :: blockFrom none cs := by
  rw [blockFrom]
  rintro ds rfl rfl
  exact h rfl rfl

theorem blockFrom_some_cons {c : Char} (h : c = '*' → '/' ∉ cs.head?) :
    blockFrom (some held) (c :: cs) = blockFrom (some (c :: held)) cs := by
  rw [blockFrom]
  rintro ds rfl rfl
  exact h rfl rfl

theorem endsInBlock_false_cons {c : Char} (h : c = '/' → '*' ∉ cs.head?) :
    endsInBlock false (c :: cs) = endsInBlock false cs := by
  rw [endsInBlock]
  rintro ds rfl rfl
  exact h rfl rfl

theorem endsInBlock_true_cons {c : Char} (h : c = '*' → '/' ∉ cs.head?) :
    endsInBlock true (c :: cs) = endsInBlock true cs := by
  rw [endsInBlock]
  rintro ds rfl rfl
  exact h rfl rfl

/-- No character of a mark begins the text. -/
def NoMarkAhead (cs : List Char) : Prop := ∀ x ∈ cs.head?, x ≠ '*' ∧ x ≠ '/'

theorem not_mem_head? {y : Char} (h : ∀ ds, xs = y :: ds → False) : y ∉ xs.head? := by
  cases xs with
  | nil => exact fun hmem => by cases hmem
  | cons x xs => exact fun hmem => h xs (by rw [Option.some.inj hmem])

/-- What makes no mark with the rest of a text makes none with what follows it. -/
theorem NoMarkAhead.not_mem_head? (hcs : NoMarkAhead cs) {y : Char} (hy : y = '*' ∨ y = '/')
    (hxs : ∀ ds, xs = y :: ds → False) : y ∉ (xs ++ cs).head? := by
  cases xs with
  | nil =>
    intro hmem
    rcases hy with rfl | rfl
    · exact (hcs '*' hmem).1 rfl
    · exact (hcs '/' hmem).2 rfl
  | cons x xs => exact fun hmem => hxs xs (by rw [Option.some.inj hmem])

/-- Whether a text of two parts ends inside of a comment is seen part by part. -/
theorem endsInBlock_append (hcs : NoMarkAhead cs) (inside : Bool) (xs : List Char) :
    endsInBlock inside (xs ++ cs) = endsInBlock (endsInBlock inside xs) cs := by
  fun_induction endsInBlock inside xs with
  | case1 => rfl
  | case2 xs ih => rwa [List.cons_append, List.cons_append, endsInBlock]
  | case3 c xs hpair ih =>
    have hnext := fun hc : c = '/' => hcs.not_mem_head? (Or.inl rfl) fun ds => hpair ds hc
    rwa [List.cons_append, endsInBlock_false_cons hnext]
  | case4 => rfl
  | case5 xs ih => rwa [List.cons_append, List.cons_append, endsInBlock]
  | case6 c xs hpair ih =>
    have hnext := fun hc : c = '*' => hcs.not_mem_head? (Or.inr rfl) fun ds => hpair ds hc
    rwa [List.cons_append, endsInBlock_true_cons hnext]

/-- Behind a text that ends outside of a comment the scan begins anew. -/
theorem blockFrom_append (hcs : NoMarkAhead cs) {o : Option (List Char)}
    (h : endsInBlock o.isSome xs = false) :
    blockFrom o (xs ++ cs) = blockFrom o xs ++ blockFrom none cs := by
  fun_induction blockFrom o xs with
  | case1 => rfl
  | case2 xs ih =>
    rw [List.cons_append, List.cons_append, blockFrom]
    exact ih (by rw [← h]; rfl)
  | case3 c xs hpair ih =>
    have hnext := fun hc : c = '/' => hcs.not_mem_head? (Or.inl rfl) fun ds => hpair ds hc
    rw [Option.isSome_none,
      endsInBlock_false_cons fun hc => not_mem_head? fun ds => hpair ds hc] at h
    rw [List.cons_append, blockFrom_none_cons hnext, ih h, List.cons_append]
  | case4 held => cases h
  | case5 held xs ih =>
    rw [List.cons_append, List.cons_append, blockFrom]
    exact ih (by rw [← h]; rfl)
  | case6 held c xs hpair ih =>
    have hnext := fun hc : c = '*' => hcs.not_mem_head? (Or.inr rfl) fun ds => hpair ds hc
    rw [Option.isSome_some,
      endsInBlock_true_cons fun hc => not_mem_head? fun ds => hpair ds hc] at h
    rw [List.cons_append, blockFrom_some_cons hnext, ih h]

/-- Behind a text that ends inside of a comment the scan goes on inside. -/
theorem exists_blockFrom_append {o : Option (List Char)} (h : endsInBlock o.isSome xs = true) :
    ∃ out held, (∀ x ∈ out, x ∈ xs) ∧
      ∀ cs, NoMarkAhead cs → blockFrom o (xs ++ cs) = out ++ blockFrom (some held) cs := by
  fun_induction blockFrom o xs with
  | case1 => cases h
  | case2 xs ih =>
    obtain ⟨out, held, hout, hfrom⟩ := ih (by rw [← h]; rfl)
    refine ⟨out, held, fun x hx => by simp [hout x hx], fun cs hcs => ?_⟩
    rw [List.cons_append, List.cons_append, blockFrom, hfrom cs hcs]
  | case3 c xs hpair ih =>
    have hend : endsInBlock false xs = true := by
      rwa [Option.isSome_none,
        endsInBlock_false_cons fun hc => not_mem_head? fun ds => hpair ds hc] at h
    obtain ⟨out, held, hout, hfrom⟩ := ih hend
    refine ⟨c :: out, held, ?_, fun cs hcs => ?_⟩
    · simpa using fun x hx => Or.inr (hout x hx)
    · have hnext := fun hc : c = '/' => hcs.not_mem_head? (Or.inl rfl) fun ds => hpair ds hc
      rw [List.cons_append, blockFrom_none_cons hnext, hfrom cs hcs]
      rfl
  | case4 held => exact ⟨[], held, by simp, fun cs _ => rfl⟩
  | case5 held xs ih =>
    obtain ⟨out, held', hout, hfrom⟩ := ih (by rw [← h]; rfl)
    refine ⟨out, held', fun x hx => by simp [hout x hx], fun cs hcs => ?_⟩
    rw [List.cons_append, List.cons_append, blockFrom, hfrom cs hcs]
  | case6 held c xs hpair ih =>
    have hend : endsInBlock true xs = true := by
      rwa [Option.isSome_some,
        endsInBlock_true_cons fun hc => not_mem_head? fun ds => hpair ds hc] at h
    obtain ⟨out, held', hout, hfrom⟩ := ih hend
    refine ⟨out, held', fun x hx => by simp [hout x hx], fun cs hcs => ?_⟩
    have hnext := fun hc : c = '*' => hcs.not_mem_head? (Or.inr rfl) fun ds => hpair ds hc
    rw [List.cons_append, blockFrom_some_cons hnext, hfrom cs hcs]

/-- Blanks neither begin nor end a comment. -/
theorem endsInBlock_blanks (h : ∀ c ∈ cs, Text.isBlank c) (inside : Bool) :
    endsInBlock inside cs = inside := by
  induction cs with
  | nil => cases inside <;> rfl
  | cons c cs ih =>
    have hc := h c List.mem_cons_self
    have hrest := ih fun x hx => h x (List.mem_cons_of_mem c hx)
    have hstar : c ≠ '*' := by rintro rfl; cases hc
    have hslash : c ≠ '/' := by rintro rfl; cases hc
    cases inside
    · rwa [endsInBlock_false_cons fun he => absurd he hslash]
    · rwa [endsInBlock_true_cons fun he => absurd he hstar]

theorem noMarkAhead_blanks (h : ∀ c ∈ cs, Text.isBlank c) : NoMarkAhead cs := by
  intro x hx
  have hblank := h x (List.mem_of_head? hx)
  constructor
  · rintro rfl
    cases hblank
  · rintro rfl
    cases hblank

/-- The comment is gone, whatever follows. -/
theorem blockFrom_block {body : List Char} (hbody : Text.contains body ['*', '/'] = false)
    (held cs : List Char) :
    blockFrom (some held) (body ++ '*' :: '/' :: cs) = blockFrom none cs := by
  induction body generalizing held with
  | nil => rw [List.nil_append, blockFrom]
  | cons c body ih =>
    rw [contains_pair_cons] at hbody
    rw [List.cons_append, blockFrom_some_cons, ih hbody.2]
    intro hc hhead
    cases body with
    | nil => simp at hhead
    | cons d body => exact hbody.1 hc hhead

/-- A text without a beginning of a comment stays, if what follows does not complete one. -/
theorem blockFrom_solid (hxs : Text.contains xs ['/', '*'] = false) {x : Char} (hx : x ≠ '/')
    (hx' : x ≠ '*') (cs : List Char) :
    blockFrom none (xs ++ x :: cs) = xs ++ x :: blockFrom none cs := by
  induction xs with
  | nil => rw [List.nil_append, blockFrom_none_cons fun h => absurd h hx, List.nil_append]
  | cons c xs ih =>
    rw [contains_pair_cons] at hxs
    rw [List.cons_append, blockFrom_none_cons, ih hxs.2, List.cons_append]
    intro hc hhead
    cases xs with
    | nil => exact hx' (by simpa using hhead)
    | cons d xs => exact hxs.1 hc hhead

theorem mem_blockFrom {c : Char} {o : Option (List Char)} (h : c ∈ blockFrom o cs) :
    c ∈ o.getD [] ∨ c ∈ cs := by
  fun_induction blockFrom o cs with
  | case1 => cases h
  | case2 cs ih =>
    rcases ih h with h | h
    · have hmark : c = '*' ∨ c = '/' := by simpa using h
      rcases hmark with rfl | rfl <;> simp
    · exact Or.inr (List.mem_cons_of_mem _ (List.mem_cons_of_mem _ h))
  | case3 d cs hpair ih =>
    rcases List.mem_cons.mp h with rfl | h
    · exact Or.inr List.mem_cons_self
    · exact Or.inr (List.mem_cons_of_mem d ((ih h).resolve_left List.not_mem_nil))
  | case4 held => exact Or.inl (by simpa using h)
  | case5 held cs ih =>
    have hmem := (ih h).resolve_left List.not_mem_nil
    exact Or.inr (List.mem_cons_of_mem _ (List.mem_cons_of_mem _ hmem))
  | case6 held d cs hpair ih =>
    rcases ih h with h | h
    · rcases List.mem_cons.mp h with rfl | h
      · exact Or.inr List.mem_cons_self
      · exact Or.inl h
    · exact Or.inr (List.mem_cons_of_mem d h)

end TokenLint.Json.Comment
