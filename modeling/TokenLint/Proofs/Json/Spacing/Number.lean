import TokenLint.Proofs.Json.Spacing.String

/-!
# Words and numbers do not depend on the space behind them

Two texts that begin with one word are read side by side. What comes behind the word is no part of
it in either of them, so a reader that goes through the word stops in both at its end, and one that
asks for more fails in both.
-/
namespace TokenLint.Json.Reader

variable {α : Type} {R : List Char → List Char → Prop} {n : Nat} {c d : Cursor}
  {as bs : List Char}

/-! ### Words -/

/-- No word goes on in the text. -/
def WordEnd (cs : List Char) : Prop := ∀ x ∈ cs.head?, isWordChar x = false

theorem AlikeWord.cases_head (h : AlikeWord n as bs) :
    WordEnd as ∧ WordEnd bs ∨ ∃ x as' bs', as = x :: as' ∧ bs = x :: bs' ∧ AlikeWord n as' bs' := by
  cases h with
  | stop left right rest => exact .inl ⟨left, right⟩
  | char plain rest => exact .inr ⟨_, _, _, rfl, rfl, rest.mono (Nat.le_succ _)⟩

/-- A character behind a word is none that a number goes on with. -/
theorem number_ends {x : Char} (h : isWordChar x = false) :
    x.isDigit = false ∧ isExponentMark x = false ∧ x ≠ '.' ∧ x ≠ '+' ∧ x ≠ '-' := by
  have hne : ∀ y, isWordChar y = true → x ≠ y := by
    rintro y hy rfl
    rw [h] at hy
    cases hy
  simp only [isWordChar, Char.isAlphanum, Bool.or_eq_false_iff] at h
  exact ⟨h.1.1.1.2, by simp [isExponentMark, hne 'e' rfl, hne 'E' rfl], hne '.' rfl, hne '+' rfl,
    hne '-' rfl⟩

/-- At the ends of two words a reader agrees that fails at every end of a word. -/
theorem agree_of_fails {read : Cursor → Except FaultAt (α × Cursor)}
    (hend : ∀ {es}, WordEnd es → ∀ r, ∃ f, read ⟨es, r⟩ = .error f) (hleft : WordEnd as)
    (hright : WordEnd bs) (p q : Nat) : Agree R (read ⟨as, p⟩) (read ⟨bs, q⟩) := by
  obtain ⟨f, hf⟩ := hend hleft p
  obtain ⟨g, hg⟩ := hend hright q
  rw [hf, hg]
  exact agree_error f g

theorem wordRest_wordEnd (h : WordEnd c.rest) (v : Value) {x : Char} (hx : isWordChar x)
    (w : List Char) : ∃ e, wordRest v (x :: w) c = .error e := by
  obtain ⟨cs, p⟩ := c
  cases cs with
  | nil => exact ⟨_, rfl⟩
  | cons y cs =>
    have hne : y ≠ x := by
      rintro rfl
      rw [h y rfl] at hx
      cases hx
    exact ⟨⟨.unknownWord, p + 1⟩, by simp [wordRest, hne]⟩

theorem agree_wordRest (v : Value) {w : List Char} (hw : ∀ x ∈ w, isWordChar x)
    (h : AlikeWord n c.rest d.rest) : Agree (Alike n) (wordRest v w c) (wordRest v w d) := by
  induction w generalizing c d with
  | nil => exact agree_ok v h.alike
  | cons x w ih =>
    obtain ⟨cs, p⟩ := c
    obtain ⟨ds, q⟩ := d
    rcases h.cases_head with ⟨hleft, hright⟩ | ⟨y, as, bs, rfl, rfl, hrest⟩
    · obtain ⟨e, he⟩ := wordRest_wordEnd hleft v (hw x List.mem_cons_self) w
      obtain ⟨f, hf⟩ := wordRest_wordEnd hright v (hw x List.mem_cons_self) w
      rw [he, hf]
      exact agree_error e f
    · simp only [wordRest]
      split
      · exact ih (fun y hy => hw y (List.mem_cons_of_mem x hy)) hrest
      · exact agree_error _ _

/-- The digits in front are the same, and what comes behind them is alike. -/
theorem AlikeWord.digits (h : AlikeWord n as bs) (p q : Nat) :
    as.takeWhile Char.isDigit = bs.takeWhile Char.isDigit ∧
      AlikeWord n (skipFrom Char.isDigit as p).rest (skipFrom Char.isDigit bs q).rest := by
  induction h generalizing p q with
  | @stop n as bs left right rest =>
    have hstay : ∀ {cs}, WordEnd cs → ∀ r, cs.takeWhile Char.isDigit = [] ∧
        (skipFrom Char.isDigit cs r).rest = cs := by
      intro cs hcs r
      cases cs with
      | nil => exact ⟨rfl, rfl⟩
      | cons x cs => simp [skipFrom, (number_ends (hcs x rfl)).1]
    rw [(hstay left p).1, (hstay right q).1, (hstay left p).2, (hstay right q).2]
    exact ⟨rfl, .stop left right rest⟩
  | @char n x as bs plain rest ih =>
    by_cases hx : x.isDigit
    · simp only [List.takeWhile_cons, skipFrom, hx, if_true, List.cons.injEq, true_and]
      have hrest := ih (p + x.utf8Size) (q + x.utf8Size)
      exact ⟨hrest.1, hrest.2.mono (Nat.le_succ n)⟩
    · simp only [List.takeWhile_cons, skipFrom, hx]
      exact ⟨rfl, .char plain rest⟩

/-! ### Exponents -/

theorem agree_scale (positive : Bool) (significand : Nat) (e : Int) (h : R c.rest d.rest) :
    Agree R (scale positive significand e c) (scale positive significand e d) := by
  simp only [scale]
  split
  · exact agree_behind _
  · exact agree_ok _ h

/-- How many digits it takes until their value no longer fits in 31 bits. -/
def excess? (ds : List Char) : Option Nat :=
  (List.range (ds.length + 1)).find? fun n =>
    0x7FFFFFFF < (ds.take n).foldl (fun v d => 10 * v + digitValue d) 0

/-- The digits of an exponent behind its sign. -/
def exponentDigits (positive : Bool) (significand : Nat) (e : Int) (up : Bool) : Reader Value :=
  fun c =>
  match c.rest with
  | [] => behind .unfinishedValue c
  | x :: _ =>
    if !x.isDigit then .error ⟨.badNumber, c.pos + 1⟩
    else
      let ds := c.rest.takeWhile Char.isDigit
      let next := skipFrom Char.isDigit c.rest c.pos
      match excess? ds with
      | some n =>
        if significand != 0 && up then .error ⟨.hugeNumber, c.pos + n⟩
        else .ok (.double (if positive then 0.0 else -0.0), next)
      | none =>
        let v := ds.foldl (fun v d => 10 * v + digitValue d) 0
        scale positive significand (if up then e + v else e - v) next

/-- The sign of an exponent, and what comes behind it. -/
def exponentSign (c : Cursor) : Bool × Cursor :=
  match c.rest with
  | '+' :: xs => (true, ⟨xs, c.pos + 1⟩)
  | '-' :: xs => (false, ⟨xs, c.pos + 1⟩)
  | _ => (true, c)

theorem exponent_eq (positive : Bool) (significand : Nat) (e : Int) (c : Cursor) :
    exponent positive significand e c =
      exponentDigits positive significand e (exponentSign c).1 (exponentSign c).2 := rfl

theorem exponentSign_of_ne (h : ∀ x ∈ c.rest.head?, x ≠ '+' ∧ x ≠ '-') :
    exponentSign c = (true, c) := by
  unfold exponentSign
  split
  case h_1 xs hrest => exact absurd rfl (h '+' (by rw [hrest]; rfl)).1
  case h_2 xs hrest => exact absurd rfl (h '-' (by rw [hrest]; rfl)).2
  case h_3 => rfl

theorem AlikeWord.sign (h : AlikeWord n c.rest d.rest) :
    (exponentSign c).1 = (exponentSign d).1 ∧
      AlikeWord n (exponentSign c).2.rest (exponentSign d).2.rest := by
  obtain ⟨cs, p⟩ := c
  obtain ⟨ds, q⟩ := d
  rcases h.cases_head with ⟨hleft, hright⟩ | ⟨x, as, bs, rfl, rfl, hrest⟩
  · rw [exponentSign_of_ne fun x hx => (number_ends (hleft x hx)).2.2.2,
      exponentSign_of_ne fun x hx => (number_ends (hright x hx)).2.2.2]
    exact ⟨rfl, h⟩
  · rcases eq_or_ne x '+' with rfl | hplus
    · exact ⟨rfl, hrest⟩
    · rcases eq_or_ne x '-' with rfl | hminus
      · exact ⟨rfl, hrest⟩
      · rw [exponentSign_of_ne (by simp [hplus, hminus]),
          exponentSign_of_ne (by simp [hplus, hminus])]
        exact ⟨rfl, h⟩

theorem agree_exponentDigits (positive : Bool) (significand : Nat) (e : Int) (up : Bool)
    (h : AlikeWord n c.rest d.rest) :
    Agree (Alike n) (exponentDigits positive significand e up c)
      (exponentDigits positive significand e up d) := by
  obtain ⟨cs, p⟩ := c
  obtain ⟨ds, q⟩ := d
  obtain ⟨htake, hskip⟩ := h.digits p q
  rcases h.cases_head with ⟨hleft, hright⟩ | ⟨x, as, bs, rfl, rfl, -⟩
  · have hend : ∀ {es}, WordEnd es → ∀ r,
        ∃ f, exponentDigits positive significand e up ⟨es, r⟩ = .error f := by
      intro es hes r
      cases es with
      | nil => exact ⟨_, rfl⟩
      | cons x es => exact ⟨⟨.badNumber, r + 1⟩, by
          simp [exponentDigits, (number_ends (hes x rfl)).1]⟩
    exact agree_of_fails hend hleft hright p q
  · simp only [exponentDigits, htake]
    split
    · exact agree_error _ _
    · cases excess? ((x :: bs).takeWhile Char.isDigit) with
      | none => exact agree_scale positive significand _ hskip.alike
      | some k =>
        dsimp only
        split
        · exact agree_error _ _
        · exact agree_ok _ hskip.alike

theorem agree_exponent (positive : Bool) (significand : Nat) (e : Int)
    (h : AlikeWord n c.rest d.rest) :
    Agree (Alike n) (exponent positive significand e c) (exponent positive significand e d) := by
  rw [exponent_eq, exponent_eq, h.sign.1]
  exact agree_exponentDigits positive significand e _ h.sign.2

theorem complete_wordEnd (h : WordEnd c.rest) (positive : Bool) (significand : Nat) (e : Int) :
    complete positive significand e c = scale positive significand e c := by
  obtain ⟨cs, p⟩ := c
  cases cs with
  | nil => rfl
  | cons x cs => simp [complete, (number_ends (h x rfl)).2.1]

theorem agree_complete (positive : Bool) (significand : Nat) (e : Int)
    (h : AlikeWord n c.rest d.rest) :
    Agree (Alike n) (complete positive significand e c) (complete positive significand e d) := by
  obtain ⟨cs, p⟩ := c
  obtain ⟨ds, q⟩ := d
  rcases h.cases_head with ⟨hleft, hright⟩ | ⟨x, as, bs, rfl, rfl, hrest⟩
  · rw [complete_wordEnd hleft, complete_wordEnd hright]
    exact agree_scale positive significand e h.alike
  · simp only [complete]
    split
    · exact agree_exponent positive significand e hrest
    · exact agree_scale positive significand e h.alike

/-! ### Digits -/

theorem fractionFrom_wordEnd {cs : List Char} (h : WordEnd cs) (positive : Bool) (significand : Nat)
    (e : Int) (p : Nat) :
    fractionFrom positive significand e cs p = complete positive significand e ⟨cs, p⟩ := by
  cases cs with
  | nil => rfl
  | cons x cs => simp [fractionFrom, (number_ends (h x rfl)).1]

theorem agree_fractionFrom (positive : Bool) (significand : Nat) (e : Int)
    (h : AlikeWord n as bs) (p q : Nat) :
    Agree (Alike n) (fractionFrom positive significand e as p)
      (fractionFrom positive significand e bs q) := by
  induction h generalizing significand e p q with
  | stop left right rest =>
    rw [fractionFrom_wordEnd left, fractionFrom_wordEnd right]
    exact agree_complete positive significand e (.stop left right rest)
  | @char n x as bs plain rest ih =>
    have hall : AlikeWord (n + 1) (x :: as) (x :: bs) := .char plain rest
    simp only [fractionFrom]
    split
    · split
      · exact agree_complete positive significand e (hall.digits p q).2
      · exact (ih _ _ _ _).mono fun _ _ h => h.mono (Nat.le_succ n)
    · exact agree_complete positive significand e (c := ⟨_, p⟩) (d := ⟨_, q⟩) hall

theorem agree_fraction (positive : Bool) (significand : Nat) (e : Int)
    (h : AlikeWord n c.rest d.rest) :
    Agree (Alike n) (fraction positive significand e c) (fraction positive significand e d) := by
  obtain ⟨cs, p⟩ := c
  obtain ⟨ds, q⟩ := d
  rcases h.cases_head with ⟨hleft, hright⟩ | ⟨x, as, bs, rfl, rfl, hrest⟩
  · have hend : ∀ {es}, WordEnd es → ∀ r,
        ∃ f, fraction positive significand e ⟨es, r⟩ = .error f := by
      intro es hes r
      cases es with
      | nil => exact ⟨_, rfl⟩
      | cons x es => exact ⟨_, by simp only [fraction, (number_ends (hes x rfl)).1]; rfl⟩
    exact agree_of_fails hend hleft hright p q
  · simp only [fraction]
    split
    · exact agree_fractionFrom positive significand e h p q
    · exact agree_ahead _

theorem longFrom_wordEnd {cs : List Char} (h : WordEnd cs) (positive : Bool) (significand e : Nat)
    (p : Nat) : longFrom positive significand e cs p = complete positive significand e ⟨cs, p⟩ := by
  cases cs with
  | nil => rfl
  | cons x cs =>
    obtain ⟨hdigit, -, hpoint, -⟩ := number_ends (h x rfl)
    simp [longFrom, hdigit, hpoint]

theorem agree_longFrom (positive : Bool) (significand e : Nat) (h : AlikeWord n as bs)
    (p q : Nat) : Agree (Alike n) (longFrom positive significand e as p)
      (longFrom positive significand e bs q) := by
  induction h generalizing e p q with
  | stop left right rest =>
    rw [longFrom_wordEnd left, longFrom_wordEnd right]
    exact agree_complete positive significand e (.stop left right rest)
  | @char n x as bs plain rest ih =>
    have hrest : AlikeWord (n + 1) as bs := rest.mono (Nat.le_succ n)
    simp only [longFrom]
    split
    · exact (ih _ _ _).mono fun _ _ h => h.mono (Nat.le_succ n)
    · split
      · exact agree_fraction positive significand e (c := ⟨_, p + 1⟩) (d := ⟨_, q + 1⟩) hrest
      · exact agree_complete positive significand e (c := ⟨_, p⟩) (d := ⟨_, q⟩) (.char plain rest)

theorem wholeFrom_wordEnd {cs : List Char} (h : WordEnd cs) (positive : Bool)
    (significand p : Nat) :
    wholeFrom positive significand cs p = .ok (whole positive significand, ⟨cs, p⟩) := by
  cases cs with
  | nil => rfl
  | cons x cs =>
    obtain ⟨hdigit, hexp, hpoint, -⟩ := number_ends (h x rfl)
    simp [wholeFrom, hdigit, hexp, hpoint]

theorem agree_wholeFrom (positive : Bool) (significand : Nat) (h : AlikeWord n as bs) (p q : Nat) :
    Agree (Alike n) (wholeFrom positive significand as p)
      (wholeFrom positive significand bs q) := by
  induction h generalizing significand p q with
  | stop left right rest =>
    rw [wholeFrom_wordEnd left, wholeFrom_wordEnd right]
    exact agree_ok _ rest
  | @char n x as bs plain rest ih =>
    have hall : AlikeWord (n + 1) (x :: as) (x :: bs) := .char plain rest
    have hrest : AlikeWord (n + 1) as bs := rest.mono (Nat.le_succ n)
    simp only [wholeFrom]
    split
    · split
      · exact agree_longFrom positive significand 0 hall p q
      · exact (ih _ _ _).mono fun _ _ h => h.mono (Nat.le_succ n)
    · split
      · exact agree_fraction positive significand 0 (c := ⟨_, p + 1⟩) (d := ⟨_, q + 1⟩) hrest
      · split
        · exact agree_exponent positive significand 0 (c := ⟨_, p + 1⟩) (d := ⟨_, q + 1⟩) hrest
        · exact agree_ok (c := ⟨_, p⟩) (d := ⟨_, q⟩) _ hall.alike

theorem AlikeWord.head_isDigit (h : AlikeWord n as bs) :
    (as.head?.map Char.isDigit).getD false = (bs.head?.map Char.isDigit).getD false := by
  rcases h.cases_head with ⟨hleft, hright⟩ | ⟨x, as, bs, rfl, rfl, -⟩
  · have hend : ∀ {cs}, WordEnd cs → (cs.head?.map Char.isDigit).getD false = false := by
      intro cs hcs
      cases cs with
      | nil => rfl
      | cons x cs => exact (number_ends (hcs x rfl)).1
    rw [hend hleft, hend hright]
  · rfl

/-- A number reads one character at least. -/
theorem agree_number_cons (positive : Bool) (x : Char) (h : AlikeWord n as bs) (p q : Nat) :
    Agree (Alike n) (number positive ⟨x :: as, p⟩) (number positive ⟨x :: bs, q⟩) := by
  simp only [number, h.head_isDigit]
  split
  · split
    · exact agree_ahead _
    · exact agree_wholeFrom positive 0 h _ _
  · split
    case isTrue hdigit =>
      have hfits : ¬largest < 10 * 0 + digitValue x := by
        have hx : x.toNat ≤ 57 := by
          simp only [Char.isDigit, Bool.and_eq_true, decide_eq_true_eq] at hdigit
          exact UInt32.le_iff_toNat_le.mp hdigit.2
        unfold largest digitValue
        omega
      simp only [wholeFrom, hdigit, hfits, if_true, if_false]
      exact agree_wholeFrom positive _ h _ _
    case isFalse => exact agree_error _ _

theorem agree_number (positive : Bool) (h : AlikeWord n c.rest d.rest) :
    Agree (Alike n) (number positive c) (number positive d) := by
  obtain ⟨cs, p⟩ := c
  obtain ⟨ds, q⟩ := d
  rcases h.cases_head with ⟨hleft, hright⟩ | ⟨x, as, bs, rfl, rfl, hrest⟩
  · have hend : ∀ {es}, WordEnd es → ∀ r, ∃ f, number positive ⟨es, r⟩ = .error f := by
      intro es hes r
      cases es with
      | nil => exact ⟨_, rfl⟩
      | cons x es =>
        have hzero : x ≠ '0' := by
          rintro rfl
          cases (hes '0' rfl)
        exact ⟨_, by simp [number, (number_ends (hes x rfl)).1, hzero]; rfl⟩
    exact agree_of_fails hend hleft hright p q
  · exact agree_number_cons positive x hrest p q

end TokenLint.Json.Reader
