import TokenLint.Proofs.Json.Spelling

/-!
# Texts that differ in the space between their tokens

Two spellings of the same tokens are compared from where a reader stands in each. Within a word or
a string they go on with the same characters up to its end.
-/
namespace TokenLint.Json.Reader

/-- How many characters some tokens hold. -/
def weight : List Token → Nat
  | [] => 0
  | t :: ts => t.text.length + weight ts

/-- Two texts without comments that spell the same tokens, of fewer than `n` characters. -/
def Alike (n : Nat) (as bs : List Char) : Prop := ∃ ts, weight ts < n ∧ Plain ts as ∧ Plain ts bs

/-- Two texts that begin with the rest of one word. -/
inductive AlikeWord : Nat → List Char → List Char → Prop
  | stop {n : Nat} {as bs : List Char} (left : ∀ x ∈ as.head?, isWordChar x = false)
      (right : ∀ x ∈ bs.head?, isWordChar x = false) (rest : Alike n as bs) : AlikeWord n as bs
  | char {n : Nat} {x : Char} {as bs : List Char} (plain : isWordChar x)
      (rest : AlikeWord n as bs) : AlikeWord (n + 1) (x :: as) (x :: bs)

/-- Two texts that begin with the rest of one string. -/
inductive AlikeString : Nat → List Char → List Char → Prop
  | close {n : Nat} {as bs : List Char} (rest : Alike n as bs) :
      AlikeString (n + 1) ('"' :: as) ('"' :: bs)
  | escaped {n : Nat} {x : Char} {as bs : List Char} (rest : AlikeString n as bs) :
      AlikeString (n + 2) ('\\' :: x :: as) ('\\' :: x :: bs)
  | char {n : Nat} {x : Char} {as bs : List Char} (quote : x ≠ '"') (backslash : x ≠ '\\')
      (rest : AlikeString n as bs) : AlikeString (n + 1) (x :: as) (x :: bs)

/-- Two texts that begin with the same token, if with any. -/
inductive Facing (n : Nat) : List Char → List Char → Prop
  | stop : Facing n [] []
  | cons {x : Char} {as bs : List Char} (mark : x ∈ marks → Alike n as bs)
      (quote : x = '"' → AlikeString n as bs) (word : isWordChar x → AlikeWord n as bs) :
      Facing n (x :: as) (x :: bs)

variable {n m : Nat} {c d : Cursor} {as bs : List Char}

theorem weight_cons (t : Token) (ts : List Token) :
    weight (t :: ts) = t.text.length + weight ts := rfl

theorem weight_le {ts : List Token} {cs : List Char} (h : Plain ts cs) : weight ts ≤ cs.length := by
  induction h with
  | done => exact Nat.le_refl 0
  | space blank rest ih => exact Nat.le_succ_of_le ih
  | comment admitted => exact admitted.elim
  | token border rest ih =>
    rw [weight_cons, List.length_append]
    omega

theorem Alike.mono (h : Alike n as bs) (hle : n ≤ m) : Alike m as bs := by
  obtain ⟨ts, hts, has, hbs⟩ := h
  exact ⟨ts, by omega, has, hbs⟩

theorem AlikeWord.mono (h : AlikeWord n as bs) (hle : n ≤ m) : AlikeWord m as bs := by
  induction h generalizing m with
  | stop left right rest => exact .stop left right (rest.mono hle)
  | char plain rest ih =>
    obtain ⟨k, rfl⟩ : ∃ k, m = k + 1 := ⟨m - 1, by omega⟩
    exact .char plain (ih (by omega))

theorem AlikeString.mono (h : AlikeString n as bs) (hle : n ≤ m) : AlikeString m as bs := by
  induction h generalizing m with
  | close rest =>
    obtain ⟨k, rfl⟩ : ∃ k, m = k + 1 := ⟨m - 1, by omega⟩
    exact .close (rest.mono (by omega))
  | escaped rest ih =>
    obtain ⟨k, rfl⟩ : ∃ k, m = k + 2 := ⟨m - 2, by omega⟩
    exact .escaped (ih (by omega))
  | char quote backslash rest ih =>
    obtain ⟨k, rfl⟩ : ∃ k, m = k + 1 := ⟨m - 1, by omega⟩
    exact .char quote backslash (ih (by omega))

/-- The bound may be taken from the lengths of the texts. -/
theorem Alike.tight (h : Alike n as bs) :
    ∃ k, k ≤ n ∧ k ≤ as.length + 1 ∧ k ≤ bs.length + 1 ∧ Alike k as bs := by
  obtain ⟨ts, hts, has, hbs⟩ := h
  have := weight_le has
  have := weight_le hbs
  exact ⟨weight ts + 1, by omega, by omega, by omega, ts, by omega, has, hbs⟩

theorem AlikeString.tight (h : AlikeString n as bs) :
    ∃ k, k ≤ n ∧ k ≤ as.length + 1 ∧ k ≤ bs.length + 1 ∧ AlikeString k as bs := by
  induction h with
  | close rest =>
    obtain ⟨k, hk, has, hbs, h⟩ := rest.tight
    exact ⟨k + 1, by omega, by simpa using has, by simpa using hbs, .close h⟩
  | escaped rest ih =>
    obtain ⟨k, hk, has, hbs, h⟩ := ih
    exact ⟨k + 2, by omega, by simpa using has, by simpa using hbs, .escaped h⟩
  | char quote backslash rest ih =>
    obtain ⟨k, hk, has, hbs, h⟩ := ih
    exact ⟨k + 1, by omega, by simpa using has, by simpa using hbs, .char quote backslash h⟩

/-- A text without comments begins with no character of a comment's mark. -/
theorem head_of_plain {ts : List Token} {cs : List Char} (h : Plain ts cs) :
    ∀ x ∈ cs.head?, x ≠ '/' ∧ x ≠ '#' := by
  cases h with
  | done => simp
  | @space c ts cs blank rest =>
    intro x hx
    obtain rfl : c = x := by simpa using hx
    constructor <;> (rintro rfl; cases blank)
  | comment admitted => exact admitted.elim
  | @token t ts cs border rest =>
    obtain ⟨y, ys, htext, -, hne⟩ := t.exists_text_eq_cons
    intro x hx
    obtain rfl : y = x := by simpa [htext] using hx
    exact hne

/-- The rest of a word is a word, or nothing. -/
theorem AlikeWord.alike (h : AlikeWord n as bs) : Alike n as bs := by
  obtain ⟨w, cs, ds, ts, rfl, rfl, hplain, hleft, hright, hlt, hcs, hds⟩ :
      ∃ w cs ds ts, as = w ++ cs ∧ bs = w ++ ds ∧ (∀ x ∈ w, isWordChar x) ∧
        (∀ x ∈ cs.head?, isWordChar x = false) ∧ (∀ x ∈ ds.head?, isWordChar x = false) ∧
        w.length + weight ts < n ∧ Plain ts cs ∧ Plain ts ds := by
    induction h with
    | stop left right rest =>
      obtain ⟨ts, hlt, has, hbs⟩ := rest
      exact ⟨[], _, _, ts, rfl, rfl, by simp, left, right, by simpa using hlt, has, hbs⟩
    | @char n x as bs plain rest ih =>
      obtain ⟨w, cs, ds, ts, rfl, rfl, hplain, hleft, hright, hlt, hcs, hds⟩ := ih
      refine ⟨x :: w, cs, ds, ts, rfl, rfl, List.forall_mem_cons.mpr ⟨plain, hplain⟩, hleft,
        hright, ?_, hcs, hds⟩
      rw [List.length_cons]
      omega
  cases w with
  | nil => exact ⟨ts, by simpa using hlt, hcs, hds⟩
  | cons x w =>
    have hborder : ∀ {es}, Plain ts es → (∀ x ∈ es.head?, isWordChar x = false) →
        ∀ y ∈ es.head?, (Token.word x w hplain).Borders y := fun hes hend y hy =>
      ⟨(head_of_plain hes y hy).1, (head_of_plain hes y hy).2, hend y hy⟩
    exact ⟨.word x w hplain :: ts, hlt, .token (t := .word x w hplain) (hborder hcs hleft) hcs,
      .token (t := .word x w hplain) (hborder hds hright) hds⟩

/-- A closed body is followed up to the quote behind it. -/
theorem alikeString_of_body {body cs ds : List Char} (hbody : isBody body) (h : Alike n cs ds) :
    AlikeString (body.length + 1 + n) (body ++ '"' :: cs) (body ++ '"' :: ds) := by
  fun_induction isBody body with
  | case1 => exact (AlikeString.close h).mono (by rw [List.length_nil]; omega)
  | case2 => cases hbody
  | case3 => cases hbody
  | case4 c body ih =>
    refine (AlikeString.escaped (ih hbody)).mono ?_
    rw [List.length_cons, List.length_cons]
    omega
  | case5 c body hquote hlone hescape ih =>
    have hbackslash : c ≠ '\\' := fun hc => by
      cases body with
      | nil => exact hlone hc rfl
      | cons d body => exact hescape d body hc rfl
    refine (AlikeString.char hquote hbackslash (ih hbody)).mono ?_
    rw [List.length_cons]
    omega

theorem Facing.of_mark {x : Char} (hx : x ∈ marks) (h : Alike n as bs) :
    Facing n (x :: as) (x :: bs) := by
  obtain ⟨hquote, hplain⟩ : x ≠ '"' ∧ isWordChar x = false := by
    obtain rfl | rfl | rfl | rfl | rfl | rfl := mem_marks.mp hx <;> decide
  refine .cons (fun _ => h) (fun he => absurd he hquote) fun hword => ?_
  rw [hplain] at hword
  cases hword

theorem Facing.of_quote (h : AlikeString n as bs) : Facing n ('"' :: as) ('"' :: bs) :=
  .cons (fun hmark => absurd hmark (by decide)) (fun _ => h) fun hword => by cases hword

theorem Facing.of_word {x : Char} (hx : isWordChar x) (h : AlikeWord n as bs) :
    Facing n (x :: as) (x :: bs) := by
  refine .cons (fun hmark => ?_) (fun he => ?_) fun _ => h
  · obtain rfl | rfl | rfl | rfl | rfl | rfl := mem_marks.mp hmark <;> cases hx
  · subst he
    cases hx

theorem alikeWord_append {w cs ds : List Char} (hw : ∀ x ∈ w, isWordChar x)
    (hleft : ∀ x ∈ cs.head?, isWordChar x = false) (hright : ∀ x ∈ ds.head?, isWordChar x = false)
    (h : Alike n cs ds) : AlikeWord (w.length + n) (w ++ cs) (w ++ ds) := by
  induction w with
  | nil => exact (AlikeWord.stop hleft hright h).mono (by simp)
  | cons x w ih =>
    have hrest := ih fun y hy => hw y (List.mem_cons_of_mem x hy)
    refine (AlikeWord.char (hw x List.mem_cons_self) hrest).mono ?_
    rw [List.length_cons]
    omega

/-- Texts that begin with one token. -/
theorem facing_of_token {t : Token} {ts : List Token} {cs ds : List Char}
    (hlt : weight (t :: ts) < n + 1) (hleft : ∀ x ∈ cs.head?, t.Borders x)
    (hright : ∀ x ∈ ds.head?, t.Borders x) (hcs : Plain ts cs) (hds : Plain ts ds) :
    Facing n (t.text ++ cs) (t.text ++ ds) := by
  have halike : Alike (weight ts + 1) cs ds := ⟨ts, by omega, hcs, hds⟩
  rw [weight_cons] at hlt
  cases t with
  | mark x known =>
    exact .of_mark known (halike.mono (by simp [Token.text] at hlt; omega))
  | word x w plain =>
    have hrest := alikeWord_append (fun y hy => plain y (List.mem_cons_of_mem x hy))
      (fun y hy => (hleft y hy).2.2) (fun y hy => (hright y hy).2.2) halike
    exact .of_word (plain x List.mem_cons_self)
      (hrest.mono (by simp [Token.text] at hlt; omega))
  | string body closed free =>
    have hrest := alikeString_of_body closed halike
    simp only [Token.text, List.cons_append, List.append_assoc, List.nil_append]
    exact .of_quote (hrest.mono (by simp [Token.text] at hlt; omega))

/-- What is left of a text when the space in front of it is passed over. -/
theorem rest_skipSpace {ts : List Token} {cs : List Char} (h : Plain ts cs) (pos : Nat) :
    Plain ts (skipFrom isSpace cs pos).rest ∧
      (ts = [] ∧ (skipFrom isSpace cs pos).rest = [] ∨
        ∃ t us ds, ts = t :: us ∧ (skipFrom isSpace cs pos).rest = t.text ++ ds ∧
          (∀ x ∈ ds.head?, t.Borders x) ∧ Plain us ds) := by
  induction h generalizing pos with
  | done => exact ⟨.done, .inl ⟨rfl, rfl⟩⟩
  | space blank rest ih =>
    rw [skipFrom, if_pos blank]
    exact ih _
  | comment admitted => exact admitted.elim
  | @token t ts cs border rest ih =>
    obtain ⟨x, xs, htext, hspace, -⟩ := t.exists_text_eq_cons
    have hstay : (skipFrom isSpace (t.text ++ cs) pos).rest = t.text ++ cs := by
      simp [htext, skipFrom, hspace]
    rw [hstay]
    exact ⟨.token border rest, .inr ⟨t, ts, cs, rfl, rfl, border, rest⟩⟩

/-- Behind the space both texts end, or both go on with the same token. -/
theorem Alike.skipSpace_cases (h : Alike (n + 1) c.rest d.rest) :
    (∃ p q, skipSpace c = ⟨[], p⟩ ∧ skipSpace d = ⟨[], q⟩) ∨
      ∃ x as bs p q, skipSpace c = ⟨x :: as, p⟩ ∧ skipSpace d = ⟨x :: bs, q⟩ ∧
        Alike (n + 1) (x :: as) (x :: bs) ∧ (x ∈ marks → Alike n as bs) ∧
        (x = '"' → AlikeString n as bs) ∧ (isWordChar x → AlikeWord n as bs) := by
  have hcursor : ∀ (e : Cursor) es,
      (skipSpace e).rest = es → skipSpace e = ⟨es, (skipSpace e).pos⟩ := by
    rintro e es rfl
    rfl
  obtain ⟨ts, hlt, hc, hd⟩ := h
  obtain ⟨hcs, hleft⟩ := rest_skipSpace hc c.pos
  obtain ⟨hds, hright⟩ := rest_skipSpace hd d.pos
  have hface : Facing n (skipSpace c).rest (skipSpace d).rest := by
    rcases hleft with ⟨rfl, hleft⟩ | ⟨t, us, es, rfl, hleft, hes, hus⟩
    · rcases hright with ⟨-, hright⟩ | ⟨t, us, fs, hts, -⟩
      · rw [skipSpace, skipSpace, hleft, hright]
        exact .stop
      · cases hts
    · rcases hright with ⟨hts, -⟩ | ⟨t', us', fs, hts, hright, hfs, hus'⟩
      · cases hts
      · cases hts
        rw [skipSpace, skipSpace, hleft, hright]
        exact facing_of_token hlt hes hfs hus hus'
  have hall : Alike (n + 1) (skipSpace c).rest (skipSpace d).rest := ⟨ts, hlt, hcs, hds⟩
  generalize hl : (skipSpace c).rest = es at hface hall
  generalize hr : (skipSpace d).rest = fs at hface hall
  cases hface with
  | stop => exact .inl ⟨_, _, hcursor c _ hl, hcursor d _ hr⟩
  | cons mark quote word =>
    exact .inr ⟨_, _, _, _, _, hcursor c _ hl, hcursor d _ hr, hall, mark, quote, word⟩

theorem not_alike_zero : ¬Alike 0 as bs := fun ⟨_, hlt, _⟩ => absurd hlt (Nat.not_lt_zero _)

end TokenLint.Json.Reader
