import TokenLint.Pattern.Match
import TokenLint.Proofs.Text.Search

/-!
# Runs of hexadecimal digits

A pattern for a color takes a `#` and some digits where a word ends behind them. Every digit is part
of a word, so of the counts that the pattern tries only that of the whole run can be taken, in
whatever order they are tried.
-/
namespace TokenLint.Text

/-- What holds of the few hexadecimal digits one by one. -/
theorem forall_isHex {P : Char → Prop}
    (h : ∀ n < 103, isHex (Char.ofNat n) → P (Char.ofNat n)) {c : Char} (hc : isHex c) :
    P c := by
  have hbound : c.toNat < 103 := by
    have hdigits := hc
    simp only [isHex, Char.isDigit, Bool.or_eq_true, Bool.and_eq_true, decide_eq_true_eq,
      Char.le_def, ge_iff_le, UInt32.le_iff_toNat_le] at hdigits
    have hval : c.val.toNat = c.toNat := rfl
    have hnine : '9'.val.toNat = 57 := rfl
    have hlower : 'f'.val.toNat = 102 := rfl
    have hupper : 'F'.val.toNat = 70 := rfl
    omega
  have hone := h c.toNat hbound
  rw [Char.ofNat_toNat] at hone
  exact hone hc

theorem isWord_of_isHex {c : Char} (h : isHex c) : isWord c :=
  forall_isHex (P := fun c => isWord c) (by decide +kernel) h

/-- What is no part of a word is no digit either. -/
theorem isHex_eq_false_of_isWord {c : Char} (h : isWord c = false) : isHex c = false := by
  cases hhex : isHex c with
  | false => rfl
  | true =>
    rw [isWord_of_isHex hhex] at h
    cases h

theorem any_isWord_iff {o : Option Char} : o.any isWord = false ↔ ∀ c ∈ o, isWord c = false := by
  cases o <;> simp

/-- The run of digits at the front of a text. -/
theorem exists_digits (cs : List Char) : ∃ ds rest, cs = ds ++ rest ∧ (∀ d ∈ ds, isHex d) ∧
    ∀ c ∈ rest.head?, isHex c = false := by
  refine ⟨cs.takeWhile isHex, cs.dropWhile isHex, List.takeWhile_append_dropWhile.symm, ?_,
    fun c hc => ?_⟩
  · exact List.all_eq_true.mp List.all_takeWhile
  · have hnot := List.head?_dropWhile_not isHex cs
    rw [Option.mem_def.mp hc] at hnot
    simpa using hnot

theorem takeWhile_isHex_append {ds rest : List Char} (hds : ∀ d ∈ ds, isHex d)
    (hrest : ∀ c ∈ rest.head?, isHex c = false) : (ds ++ rest).takeWhile isHex = ds := by
  rw [List.takeWhile_append_of_pos hds]
  cases rest with
  | nil => simp
  | cons c cs => rw [List.takeWhile_cons_of_neg (by simp [hrest c rfl]), List.append_nil]

theorem hash_not_mem {ds : List Char} (hds : ∀ d ∈ ds, isHex d) : '#' ∉ ds := fun h => by
  have hhex := hds _ h
  revert hhex
  decide

/-! ### The pattern -/

/-- A `#` and digits, by how many of them are tried. -/
def digitWays (counts : List Nat) : Ways
  | '#' :: cs => (counts.filter fun n => n ≤ cs.length && (cs.take n).all isHex).map (· + 1)
  | _ => []

/-- The ways to get to a place where a word begins or ends. -/
def wordEdgeWays (ways : Ways) : Ways := fun cs =>
  (ways cs).filter fun n =>
    (Pattern.Anchor.wordEdge.edge {}).holds (cs.take n).getLast? (cs.drop n).head?

/-- A `#` and digits up to the edge of a word. -/
def colorWays (counts : List Nat) : Ways := wordEdgeWays (digitWays counts)

variable {counts : List Nat} {ds rest cs : List Char}

theorem digitWays_cons {c : Char} (hc : c ≠ '#') (cs : List Char) :
    digitWays counts (c :: cs) = [] := by
  unfold digitWays
  split
  · rename_i heq
    exact absurd (List.cons.inj heq).1 hc
  · rfl

theorem colorWays_cons {c : Char} (hc : c ≠ '#') (cs : List Char) :
    colorWays counts (c :: cs) = [] := by
  rw [colorWays, wordEdgeWays, digitWays_cons hc, List.filter_nil]

/-- No more digits can be taken than there are. -/
theorem digitWays_append (hds : ∀ d ∈ ds, isHex d) (hrest : ∀ c ∈ rest.head?, isHex c = false) :
    digitWays counts ('#' :: (ds ++ rest)) = (counts.filter (· ≤ ds.length)).map (· + 1) := by
  rw [digitWays]
  congr 1
  refine List.filter_congr fun n _ => ?_
  rw [Bool.eq_iff_iff, Bool.and_eq_true, decide_eq_true_eq, decide_eq_true_eq, List.all_eq_true]
  constructor
  · rintro ⟨hlength, hall⟩
    refine Nat.le_of_not_lt fun hlt => ?_
    cases rest with
    | nil => simp at hlength; omega
    | cons c rest =>
      -- the first character behind the run would be a digit
      have hmem : c ∈ (ds ++ c :: rest).take n := by
        rw [List.take_append]
        refine List.mem_append_right _ ?_
        obtain ⟨k, hk⟩ := Nat.exists_eq_succ_of_ne_zero (Nat.sub_ne_zero_of_lt hlt)
        rw [hk, List.take_succ_cons]
        exact List.mem_cons_self
      have hhex := hall c hmem
      rw [hrest c rfl] at hhex
      cases hhex
  · intro hle
    rw [List.length_append, List.take_append_of_le_length hle]
    exact ⟨by omega, fun d hd => hds d (List.mem_of_mem_take hd)⟩

/-- Behind some of the digits of a run a word ends if they are all of them and no part of a word
follows. -/
theorem wordEdge_iff (hds : ∀ d ∈ ds, isHex d) {n : Nat} (hpos : 0 < n) (hle : n ≤ ds.length) :
    (Pattern.Anchor.wordEdge.edge {}).holds (('#' :: (ds ++ rest)).take (n + 1)).getLast?
        (('#' :: (ds ++ rest)).drop (n + 1)).head? ↔
      n = ds.length ∧ rest.head?.any isWord = false := by
  have hholds : ∀ before behind : Option Char,
      (Pattern.Anchor.wordEdge.edge {}).holds before behind =
        (before.any isWord != behind.any isWord) := by
    rintro (_ | before) (_ | behind) <;> rfl
  obtain ⟨last, hlast, hword⟩ : ∃ last, (('#' :: (ds ++ rest)).take (n + 1)).getLast? = some last ∧
      isWord last := by
    obtain ⟨k, rfl⟩ := Nat.exists_eq_succ_of_ne_zero (Nat.pos_iff_ne_zero.mp hpos)
    have hlt : k < ds.length := hle
    refine ⟨ds[k], ?_, isWord_of_isHex (hds _ (List.getElem_mem hlt))⟩
    rw [List.take_succ_cons, List.take_append_of_le_length hle,
      List.take_succ_eq_append_getElem hlt, ← List.cons_append, List.getLast?_concat]
  rw [hholds, hlast, List.drop_succ_cons, Option.any_some, hword, bne_iff_ne]
  rcases Nat.lt_or_eq_of_le hle with hlt | rfl
  · have hnext : ((ds ++ rest).drop n).head? = some ds[n] := by
      rw [List.drop_append_of_le_length hle, List.drop_eq_getElem_cons hlt]
      rfl
    rw [hnext, Option.any_some, isWord_of_isHex (hds _ (List.getElem_mem hlt))]
    simp
    omega
  · rw [List.drop_left]
    simp

/-- Of all counts that of the run remains, if no part of a word follows. -/
theorem head?_colorWays_append (hcounts : 0 ∉ counts) (hds : ∀ d ∈ ds, isHex d)
    (hrest : ∀ c ∈ rest.head?, isHex c = false) :
    (colorWays counts ('#' :: (ds ++ rest))).head? =
      if ds.length ∈ counts ∧ rest.head?.any isWord = false then some (ds.length + 1)
      else none := by
  have hfilter : (colorWays counts ('#' :: (ds ++ rest))) =
      ((counts.filter fun n => n = ds.length && !rest.head?.any isWord)).map (· + 1) := by
    rw [colorWays, wordEdgeWays, digitWays_append hds hrest, List.filter_map, List.filter_filter]
    congr 1
    refine List.filter_congr fun n hn => ?_
    have hpos : 0 < n := Nat.pos_of_ne_zero fun h => hcounts (h ▸ hn)
    rw [Bool.eq_iff_iff, Function.comp_apply, Bool.and_eq_true, decide_eq_true_eq, Bool.and_eq_true,
      decide_eq_true_eq, Bool.not_eq_true']
    constructor
    · rintro ⟨hedge, hle⟩
      exact (wordEdge_iff hds hpos hle).mp hedge
    · rintro ⟨rfl, hword⟩
      exact ⟨(wordEdge_iff hds hpos (Nat.le_refl _)).mpr ⟨rfl, hword⟩, Nat.le_refl _⟩
  rw [hfilter, List.head?_map]
  split
  · rename_i h
    obtain ⟨hmem, hword⟩ := h
    have hmem' : ds.length ∈ counts.filter fun n => n = ds.length && !rest.head?.any isWord :=
      List.mem_filter.mpr ⟨hmem, by simp [hword]⟩
    cases hhead : (counts.filter fun n => n = ds.length && !rest.head?.any isWord).head? with
    | none =>
      rw [List.head?_eq_none_iff.mp hhead] at hmem'
      cases hmem'
    | some n =>
      have hn := (List.mem_filter.mp (List.mem_of_head? hhead)).2
      rw [Bool.and_eq_true, decide_eq_true_eq] at hn
      rw [hn.1, Option.map_some]
  · rename_i h
    rw [List.filter_eq_nil_iff.mpr]
    · rfl
    · intro n hn hboth
      rw [Bool.and_eq_true, decide_eq_true_eq, Bool.not_eq_true'] at hboth
      obtain ⟨rfl, hword⟩ := hboth
      exact h ⟨hn, hword⟩

/-! ### Where there are colors -/

/-- A color: a `#` and all digits of a run, as many as a color may have, and no part of a word
behind them. -/
def ColorAt (counts : List Nat) (cs : List Char) (m : Occurrence) : Prop :=
  ∃ front digits back, cs = front ++ '#' :: (digits ++ back) ∧ m.place = size front ∧
    m.text = '#' :: digits ∧ digits.length ∈ counts ∧ (∀ d ∈ digits, isHex d) ∧
    ∀ c ∈ back.head?, isHex c = false ∧ isWord c = false

theorem head?_colorWays_eq_some (hcounts : 0 ∉ counts) {n : Nat}
    (h : (colorWays counts cs).head? = some n) : ∃ digits back, cs = '#' :: (digits ++ back) ∧
      n = digits.length + 1 ∧ digits.length ∈ counts ∧ (∀ d ∈ digits, isHex d) ∧
      ∀ c ∈ back.head?, isHex c = false ∧ isWord c = false := by
  cases cs with
  | nil => cases h
  | cons c cs =>
    by_cases hc : c = '#'
    · subst hc
      obtain ⟨ds, rest, rfl, hds, hrest⟩ := exists_digits cs
      rw [head?_colorWays_append hcounts hds hrest] at h
      split at h
      · rename_i hboth
        exact ⟨ds, rest, rfl, (Option.some.inj h).symm, hboth.1, hds,
          fun c hc => ⟨hrest c hc, any_isWord_iff.mp hboth.2 c hc⟩⟩
      · cases h
    · rw [colorWays_cons hc] at h
      cases h

theorem head?_colorWays_of_run (hcounts : 0 ∉ counts) (hlength : ds.length ∈ counts)
    (hds : ∀ d ∈ ds, isHex d) (hrest : ∀ c ∈ rest.head?, isHex c = false ∧ isWord c = false) :
    (colorWays counts ('#' :: (ds ++ rest))).head? = some (ds.length + 1) := by
  rw [head?_colorWays_append hcounts hds fun c hc => (hrest c hc).1, if_pos]
  exact ⟨hlength, any_isWord_iff.mpr fun c hc => (hrest c hc).2⟩

/-- The digits of a color hold no `#`. -/
theorem solitary_colorWays (hcounts : 0 ∉ counts) : Solitary (colorWays counts) := by
  intro cs n h k hpos hlt
  obtain ⟨ds, rest, rfl, rfl, -, hds, -⟩ := head?_colorWays_eq_some hcounts h
  obtain ⟨k, rfl⟩ := Nat.exists_eq_succ_of_ne_zero (Nat.pos_iff_ne_zero.mp hpos)
  have hk : k < ds.length := by omega
  have hne : ds[k] ≠ '#' := fun hhash => hash_not_mem hds (hhash ▸ List.getElem_mem hk)
  rw [List.drop_succ_cons, List.drop_append_of_le_length (Nat.le_of_lt hk),
    List.drop_eq_getElem_cons hk, List.cons_append, colorWays_cons hne]

/-- The search for colors finds all of them, whichever counts it tries first. -/
theorem mem_search_colorWays (hcounts : 0 ∉ counts) {m : Occurrence} :
    m ∈ search (colorWays counts) cs ↔ ColorAt counts cs m := by
  rw [search_eq_beginningsFrom (solitary_colorWays hcounts), mem_beginningsFrom]
  constructor
  · rintro ⟨front, back, n, rfl, -, hplace, hways, htext⟩
    obtain ⟨ds, rest, rfl, rfl, hlength, hds, hrest⟩ := head?_colorWays_eq_some hcounts hways
    rw [List.take_succ_cons, List.take_left] at htext
    exact ⟨front, ds, rest, rfl, hplace.trans (Nat.zero_add _), htext, hlength, hds, hrest⟩
  · rintro ⟨front, ds, rest, rfl, hplace, htext, hlength, hds, hrest⟩
    refine ⟨front, '#' :: (ds ++ rest), ds.length + 1, rfl, List.cons_ne_nil _ _,
      hplace.trans (Nat.zero_add _).symm, head?_colorWays_of_run hcounts hlength hds hrest, ?_⟩
    rw [htext, List.take_succ_cons, List.take_left]

end TokenLint.Text
