import TokenLint.Proofs.Json.Spacing.Number

/-!
# Reading does not depend on the space between tokens

Two texts that are alike are read side by side, value by value. Each value takes one token at least,
so neither reader runs out of fuel where the other does not, and a document is read from one text
exactly when it is read from the other.
-/
namespace TokenLint.Json

namespace Reader

variable {n : Nat} {c d : Cursor}

/-! ### Values -/

/-- A reader that goes the same way on texts that are alike, and reads one character at least. -/
def Lockstep (value : Reader Value) : Prop :=
  ∀ {n c d}, Alike (n + 1) c.rest d.rest → Agree (Alike n) (value c) (value d)

theorem agree_items {value : Reader Value} (hvalue : Lockstep value) {k l : Nat}
    (h : Alike n c.rest d.rest) (hk : n ≤ k) (hl : n ≤ l) (first : Bool) (done : List Value) :
    Agree (Alike n) (items value k first done c) (items value l first done d) := by
  induction n generalizing c d k l first done with
  | zero => exact absurd h not_alike_zero
  | succ n ih =>
    obtain ⟨k, rfl⟩ : ∃ k', k = k' + 1 := ⟨k - 1, by omega⟩
    obtain ⟨l, rfl⟩ : ∃ l', l = l' + 1 := ⟨l - 1, by omega⟩
    have hitem : ∀ c d, Alike (n + 1) c.rest d.rest →
        Agree (Alike (n + 1)) (value c >>= fun p => items value k false (p.1 :: done) p.2)
          (value d >>= fun p => items value l false (p.1 :: done) p.2) := by
      intro c d h
      refine (hvalue h).bind fun v c d h => ?_
      exact (ih h (by omega) (by omega) _ _).mono fun _ _ h => h.mono (Nat.le_succ n)
    rcases h.skipSpace_cases with
      ⟨p, q, hc, hd⟩ | ⟨x, as, bs, p, q, hc, hd, hall, hmark, -, -⟩
    · simp only [items, hc, hd]
      exact agree_ahead _
    · simp only [items, hc, hd]
      split
      case isTrue hclose =>
        obtain rfl := beq_iff_eq.mp hclose
        exact agree_ok _ ((hmark (by decide)).mono (Nat.le_succ n))
      case isFalse =>
        split
        case isTrue => exact hitem ⟨_, p⟩ ⟨_, q⟩ hall
        case isFalse =>
          split
          case isFalse => exact agree_ahead _
          case isTrue hcomma =>
            obtain rfl := beq_iff_eq.mp hcomma
            have hrest := (hmark (by decide)).mono (Nat.le_succ n)
            rcases Alike.skipSpace_cases (c := ⟨as, p + 1⟩) (d := ⟨bs, q + 1⟩) hrest with
              ⟨p, q, hc, hd⟩ | ⟨y, as, bs, p, q, hc, hd, hall, -⟩
            · simp only [hc, hd]
              exact agree_ahead _
            · simp only [hc, hd]
              split
              case isTrue => exact agree_ahead _
              case isFalse => exact hitem ⟨_, p⟩ ⟨_, q⟩ hall

/-- A member behind the quote that opens its key, and the members after it. -/
def member (value : Reader Value) (fuel : Nat) (done : List (String × Value)) : Reader Value :=
  fun c => do
  let (key, c) ← string c
  let c := skipSpace c
  match c.rest with
  | [] => ahead .unfinishedObject c
  | ':' :: ys =>
    let (v, c) ← value ⟨ys, c.pos + 1⟩
    members value fuel false (Value.insert key v done) c
  | _ => ahead .missingColon c

theorem agree_member {value : Reader Value} (hvalue : Lockstep value) {k l : Nat}
    {done : List (String × Value)}
    (hmembers : ∀ {c d} done, Alike n c.rest d.rest →
      Agree (Alike n) (members value k false done c) (members value l false done d))
    (h : AlikeString n c.rest d.rest) :
    Agree (Alike (n + 1)) (member value k done c) (member value l done d) := by
  refine (agree_string h).bind fun key c d h => ?_
  obtain ⟨m, rfl⟩ : ∃ m, n = m + 1 := by
    cases n with
    | zero => exact absurd h not_alike_zero
    | succ m => exact ⟨m, rfl⟩
  rcases h.skipSpace_cases with ⟨p, q, hc, hd⟩ | ⟨x, as, bs, p, q, hc, hd, -, hmark, -⟩
  · simp only [hc, hd]
    exact agree_ahead _
  · simp only [hc, hd]
    rcases eq_or_ne x ':' with rfl | hx
    · have hrest := hmark (by decide)
      refine (hvalue (c := ⟨as, p + 1⟩) (d := ⟨bs, q + 1⟩)
        (hrest.mono (Nat.le_succ m))).bind fun v c d h => ?_
      exact (hmembers _ (h.mono (Nat.le_succ m))).mono fun _ _ h => h.mono (Nat.le_succ _)
    · -- both readers look for the colon on their own, so the same case is ruled out twice
      split
      case h_1 heq => cases heq
      case h_2 heq => exact absurd (List.cons.inj heq).1 hx
      case h_3 =>
        split
        case h_1 heq => cases heq
        case h_2 heq => exact absurd (List.cons.inj heq).1 hx
        case h_3 => exact agree_ahead _

theorem agree_members {value : Reader Value} (hvalue : Lockstep value) {k l : Nat}
    (h : Alike n c.rest d.rest) (hk : n ≤ k) (hl : n ≤ l) (first : Bool)
    (done : List (String × Value)) :
    Agree (Alike n) (members value k first done c) (members value l first done d) := by
  -- each member is shorter than what is left, so neither reader runs out of fuel
  induction n generalizing c d k l first done with
  | zero => exact absurd h not_alike_zero
  | succ n ih =>
    obtain ⟨k, rfl⟩ : ∃ k', k = k' + 1 := ⟨k - 1, by omega⟩
    obtain ⟨l, rfl⟩ : ∃ l', l = l' + 1 := ⟨l - 1, by omega⟩
    have hmember : ∀ c d, AlikeString n c.rest d.rest →
        Agree (Alike (n + 1)) (member value k done c) (member value l done d) := fun _ _ h =>
      agree_member hvalue (fun _ h => ih h (by omega) (by omega) _ _) h
    rcases h.skipSpace_cases with
      ⟨p, q, hc, hd⟩ | ⟨x, as, bs, p, q, hc, hd, hall, hmark, hquote, -⟩
    · simp only [members, hc, hd]
      exact agree_ahead _
    · simp only [members, hc, hd]
      split
      case isTrue hclose =>
        obtain rfl := beq_iff_eq.mp hclose
        exact agree_ok _ ((hmark (by decide)).mono (Nat.le_succ n))
      case isFalse =>
        split
        case isTrue =>
          split
          case isTrue hkey => exact hmember ⟨_, p + 1⟩ ⟨_, q + 1⟩ (hquote (beq_iff_eq.mp hkey))
          case isFalse => exact agree_ahead _
        case isFalse =>
          split
          case isFalse => exact agree_ahead _
          case isTrue hcomma =>
            obtain rfl := beq_iff_eq.mp hcomma
            have hrest := (hmark (by decide)).mono (Nat.le_succ n)
            rcases Alike.skipSpace_cases (c := ⟨as, p + 1⟩) (d := ⟨bs, q + 1⟩) hrest with
              ⟨p, q, hc, hd⟩ | ⟨y, as, bs, p, q, hc, hd, -, -, hquote, -⟩
            · simp only [hc, hd]
              exact agree_ahead _
            · simp only [hc, hd]
              split
              case isTrue hkey =>
                exact hmember ⟨_, p + 1⟩ ⟨_, q + 1⟩ (hquote (beq_iff_eq.mp hkey))
              case isFalse => split <;> exact agree_ahead _

theorem lockstep_value (depth : Nat) : Lockstep (value depth) := by
  induction depth with
  | zero => exact fun _ => agree_ahead _
  | succ depth ih =>
    intro n c d h
    rcases h.skipSpace_cases with
      ⟨p, q, hc, hd⟩ | ⟨x, as, bs, p, q, hc, hd, hall, hmark, hquote, hword⟩
    · simp only [value, hc, hd]
      exact agree_ahead _
    · have hnext : ∀ {R : List Char → List Char → Prop}, R as bs →
          R (Cursor.mk as (p + 1)).rest (Cursor.mk bs (q + 1)).rest := fun h => h
      simp only [value, hc, hd]
      split
      · exact agree_wordRest .null (List.all_eq_true.mp rfl) (hnext (hword (by decide)))
      · exact agree_wordRest (.bool true) (List.all_eq_true.mp rfl) (hnext (hword (by decide)))
      · exact agree_wordRest (.bool false) (List.all_eq_true.mp rfl) (hnext (hword (by decide)))
      · exact agree_number false (hnext (hword (by decide)))
      · exact (agree_string (hnext (hquote rfl))).map Value.string
      · split
        · exact agree_ahead _
        · obtain ⟨k, hk, hleft, hright, htight⟩ := (hmark (by decide)).tight
          exact (agree_items ih (hnext htight) hleft hright true []).mono fun _ _ h => h.mono hk
      · split
        · exact agree_ahead _
        · obtain ⟨k, hk, hleft, hright, htight⟩ := (hmark (by decide)).tight
          exact (agree_members ih (hnext htight) hleft hright true []).mono fun _ _ h => h.mono hk
      · split
        case isTrue hdigit =>
          have hx : isWordChar x := by simp [isWordChar, Char.isAlphanum, hdigit]
          exact agree_number_cons true x (hword hx) p q
        case isFalse => exact agree_ahead _

theorem agree_document (h : Alike (n + 1) c.rest d.rest) :
    Agree (fun _ _ => True) (document c) (document d) := by
  refine (lockstep_value 128 h).bind fun v c d h => ?_
  cases n with
  | zero => exact absurd h not_alike_zero
  | succ n =>
    rcases h.skipSpace_cases with ⟨p, q, hc, hd⟩ | ⟨x, as, bs, p, q, hc, hd, -⟩
    · simp only [hc, hd]
      exact agree_ok v trivial
    · simp only [hc, hd]
      exact agree_ahead _

end Reader

/-- A text without comments is read as a value whenever another spelling of its tokens is. -/
theorem parse_eq_ok_congr {ts : List Token} {as bs : List Char} (has : Plain ts as)
    (hbs : Plain ts bs) (v : Value) :
    parse (String.ofList as) = .ok v ↔ parse (String.ofList bs) = .ok v := by
  have halike : Reader.Alike (Reader.weight ts + 1) as bs := ⟨ts, Nat.lt_succ_self _, has, hbs⟩
  have hagree := Reader.agree_document (c := ⟨as, 0⟩) (d := ⟨bs, 0⟩) halike
  simp only [parse, String.toList_ofList]
  match Reader.document ⟨as, 0⟩, Reader.document ⟨bs, 0⟩, hagree with
  | .ok (w, _), .ok (_, _), ⟨rfl, _⟩ => exact Iff.rfl
  | .error _, .error _, _ => simp

end TokenLint.Json
