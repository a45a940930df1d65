import Mathlib.Data.List.Infix
import TokenLint.Source.Literal

/-!
# Decoding, escape by escape

An escape reads some characters behind its backslash, and decoding goes on with the rest. More than
one character is only read of what can stand in a numeric escape or a line break, so no escape gets
past any other character.
-/
namespace TokenLint.Source.Literal

variable {c : Char} {cs rest : List Char}

/-! ### What an escape reads -/

/-- Characters that can stand in an escape of more than one character. -/
def isInner (c : Char) : Bool :=
  Text.isHex c || ['\\', 'u', 'x', '\x7b', '\x7d', '\r', '\n'].contains c

/-- Nothing but characters of numeric escapes and line breaks stands before the rest. -/
def ReadsTo (cs rest : List Char) : Prop :=
  ∃ read, cs = read ++ rest ∧ ∀ x ∈ read, isInner x

theorem ReadsTo.refl (cs : List Char) : ReadsTo cs cs := ⟨[], rfl, by simp⟩

theorem ReadsTo.cons (hc : isInner c) (h : ReadsTo cs rest) : ReadsTo (c :: cs) rest := by
  obtain ⟨read, rfl, hread⟩ := h
  exact ⟨c :: read, rfl, List.forall_mem_cons.mpr ⟨hc, hread⟩⟩

theorem ReadsTo.digits {ds : List Char} (hds : ∀ d ∈ ds, Text.isHex d) (h : ReadsTo cs rest) :
    ReadsTo (ds ++ cs) rest := by
  induction ds with
  | nil => exact h
  | cons d ds ih =>
    obtain ⟨hd, hds⟩ := List.forall_mem_cons.mp hds
    exact (ih hds).cons (by rw [isInner, hd, Bool.true_or])

theorem digits?_eq_some {count n : Nat} (h : digits? count cs = some (n, rest)) :
    ∃ ds, cs = ds ++ rest ∧ ∀ d ∈ ds, Text.isHex d := by
  unfold digits? at h
  dsimp only at h
  split at h
  · rename_i hds
    obtain ⟨-, rfl⟩ := Prod.mk.inj (Option.some.inj h)
    exact ⟨cs.take count, (List.take_append_drop count cs).symm,
      List.all_eq_true.mp (Bool.and_eq_true_iff.mp hds).2⟩
  · cases h

/-- Digits between braces. -/
theorem readsTo_braces {last : Char} (hds : (cs.takeWhile (· != '\x7d')).all Text.isHex)
    (hdrop : cs.dropWhile (· != '\x7d') = last :: rest) : ReadsTo cs rest := by
  have hlast : last = '\x7d' := by
    have hnot := List.head?_dropWhile_not (· != '\x7d') cs
    simpa [hdrop] using hnot
  rw [← List.takeWhile_append_dropWhile (p := (· != '\x7d')) (l := cs), hdrop, hlast]
  exact ((ReadsTo.refl rest).cons (by decide)).digits (List.all_eq_true.mp hds)

/-- The second half of a pair. -/
theorem readsTo_lowHalf {low : Nat} (h : lowHalf? cs = some (low, rest)) : ReadsTo cs rest := by
  unfold lowHalf? at h
  split at h
  · obtain ⟨hdigits, -⟩ := Option.filter_eq_some_iff.mp h
    obtain ⟨ds, rfl, hds⟩ := digits?_eq_some hdigits
    exact (((ReadsTo.refl rest).digits hds).cons (by decide)).cons (by decide)
  · cases h

theorem readsTo_unicode (h : unicode? cs = some (c, rest)) : ReadsTo cs rest := by
  unfold unicode? at h
  split at h
  · dsimp only at h
    split at h
    · cases h
    · rename_i hdrop
      split at h
      · cases h
      · rename_i hds
        obtain ⟨_, -, hc⟩ := Option.map_eq_some_iff.mp h
        obtain ⟨-, rfl⟩ := Prod.mk.inj hc
        obtain ⟨-, hds⟩ := not_or.mp (mt Bool.or_eq_true_iff.mpr hds)
        exact (readsTo_braces (by simpa using hds) hdrop).cons (by decide)
  · split at h
    · cases h
    · rename_i hdigits
      obtain ⟨ds, rfl, hds⟩ := digits?_eq_some hdigits
      split at h
      · split at h
        · rename_i hlow
          obtain ⟨_, -, hc⟩ := Option.map_eq_some_iff.mp h
          obtain ⟨-, rfl⟩ := Prod.mk.inj hc
          exact (readsTo_lowHalf hlow).digits hds
        · obtain ⟨-, rfl⟩ := Prod.mk.inj (Option.some.inj h)
          exact (ReadsTo.refl _).digits hds
      · obtain ⟨-, rfl⟩ := Prod.mk.inj (Option.some.inj h)
        exact (ReadsTo.refl _).digits hds

/-- An escape reads one character at most, or a numeric escape or a line break. -/
theorem escape_reads (cs : List Char) :
    (∃ read, cs = read ++ (escape cs).2 ∧ read.length ≤ 1) ∨ ReadsTo cs (escape cs).2 := by
  fun_cases escape cs
  case case1 => exact .inl ⟨[], rfl, Nat.zero_le 1⟩
  case case10 => exact .inr (((ReadsTo.refl _).cons (by decide)).cons (by decide))
  case case15 hdigits =>
    obtain ⟨ds, rfl, hds⟩ := digits?_eq_some hdigits
    exact .inr (((ReadsTo.refl _).digits hds).cons (by decide))
  case case17 hread => exact .inr ((readsTo_unicode hread).cons (by decide))
  all_goals exact .inl ⟨[_], rfl, Nat.le_refl 1⟩

theorem length_escape_le (cs : List Char) : (escape cs).2.length ≤ cs.length := by
  have hsuffix : (escape cs).2 <:+ cs := by
    rcases escape_reads cs with ⟨read, hread, -⟩ | ⟨read, hread, -⟩
    · exact ⟨read, hread.symm⟩
    · exact ⟨read, hread.symm⟩
  exact hsuffix.length_le

/-! ### Decoding without fuel -/

theorem decodeFrom_congr {fuel fuel' : Nat} (h : cs.length ≤ fuel) (h' : cs.length ≤ fuel') :
    decodeFrom fuel cs = decodeFrom fuel' cs := by
  induction fuel generalizing fuel' cs with
  | zero =>
    obtain rfl := List.length_eq_zero_iff.mp (Nat.le_zero.mp h)
    cases fuel' <;> rfl
  | succ fuel ih =>
    cases cs with
    | nil => cases fuel' <;> rfl
    | cons c cs =>
      obtain ⟨fuel', rfl⟩ : ∃ n, fuel' = n + 1 :=
        Nat.exists_eq_add_one.mpr (Nat.lt_of_lt_of_le (Nat.succ_pos _) h')
      have hcs : cs.length ≤ fuel := Nat.le_of_succ_le_succ h
      have hcs' : cs.length ≤ fuel' := Nat.le_of_succ_le_succ h'
      have hshort := length_escape_le cs
      rw [decodeFrom, decodeFrom, ih hcs hcs', ih (hshort.trans hcs) (hshort.trans hcs')]

theorem decodeChars_cons (hc : c ≠ '\\') (cs : List Char) :
    decodeChars (c :: cs) = c :: decodeChars cs := by
  rw [decodeChars, List.length_cons, decodeFrom, if_neg (by simpa using hc)]
  rfl

theorem decodeChars_escape (cs : List Char) :
    decodeChars ('\\' :: cs) = (escape cs).1 ++ decodeChars (escape cs).2 := by
  rw [decodeChars, List.length_cons, decodeFrom, if_pos (by decide), decodeChars,
    decodeFrom_congr (length_escape_le cs) (Nat.le_refl _)]

/-- Text without a backslash stands for itself. -/
theorem decodeChars_append {plain : List Char} (h : '\\' ∉ plain) (cs : List Char) :
    decodeChars (plain ++ cs) = plain ++ decodeChars cs := by
  induction plain with
  | nil => rfl
  | cons c plain ih =>
    obtain ⟨hc, hplain⟩ := not_or.mp (List.mem_cons.not.mp h)
    rw [List.cons_append, decodeChars_cons (Ne.symm hc), ih hplain, List.cons_append]

/-- An escape ends before a character that it cannot have in it, or right behind it. -/
theorem escape_rest (hc : isInner c = false) (before cs : List Char) :
    (escape (before ++ c :: cs)).2 = cs ∨ ∃ before', before'.length ≤ before.length ∧
      (escape (before ++ c :: cs)).2 = before' ++ c :: cs := by
  obtain ⟨read, hread, hkind⟩ : ∃ read, before ++ c :: cs = read ++ (escape (before ++ c :: cs)).2 ∧
      (read.length ≤ 1 ∨ c ∉ read) := by
    rcases escape_reads (before ++ c :: cs) with ⟨read, hread, hone⟩ | ⟨read, hread, hinner⟩
    · exact ⟨read, hread, .inl hone⟩
    · exact ⟨read, hread, .inr fun h => by simp [hinner c h] at hc⟩
  rcases List.append_eq_append_iff.mp hread with ⟨more, rfl, hmore⟩ | ⟨more, rfl, hmore⟩
  · cases more with
    | nil => exact .inr ⟨[], Nat.zero_le _, hmore.symm⟩
    | cons d more =>
      obtain ⟨rfl, hcs⟩ := List.cons.inj hmore
      rcases hkind with hone | hnot
      · simp only [List.length_append, List.length_cons] at hone
        obtain rfl : more = [] := List.length_eq_zero_iff.mp (by omega)
        exact .inl hcs.symm
      · exact absurd (by simp) hnot
  · refine .inr ⟨more, ?_, hmore⟩
    rw [List.length_append]
    omega

/-- Whatever is before a character that no escape reads past, what is behind it is decoded by
itself. -/
theorem exists_decodeChars (hc : isInner c = false) (before cs : List Char) :
    ∃ decoded, decodeChars (before ++ c :: cs) = decoded ++ decodeChars cs := by
  induction hlength : before.length using Nat.strong_induction_on generalizing before with
  | _ length ih =>
    subst hlength
    cases before with
    | nil =>
      have hne : c ≠ '\\' := fun h => by simp [h, isInner] at hc
      exact ⟨[c], decodeChars_cons hne cs⟩
    | cons d before =>
      by_cases hd : d = '\\'
      · subst hd
        rw [List.cons_append, decodeChars_escape]
        rcases escape_rest hc before cs with hrest | ⟨before', hshort, hrest⟩
        · exact ⟨_, by rw [hrest]⟩
        · obtain ⟨decoded, hdecoded⟩ := ih before'.length (Nat.lt_succ_of_le hshort) before' rfl
          exact ⟨_, by rw [hrest, hdecoded, List.append_assoc]⟩
      · obtain ⟨decoded, hdecoded⟩ := ih before.length (Nat.lt_succ_self _) before rfl
        exact ⟨d :: decoded, by rw [List.cons_append, decodeChars_cons hd, hdecoded]; rfl⟩

end TokenLint.Source.Literal
