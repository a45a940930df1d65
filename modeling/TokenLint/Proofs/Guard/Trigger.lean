import Mathlib.Tactic.IntervalCases
import TokenLint.Guard.Scan
import TokenLint.Proofs.Guard.Bracketed
import TokenLint.Proofs.Text.HexRun

/-!
# Triggers

A color in digits, a color function or a unit makes a bracketed value one to report. What the guard
counts up to is the end of the trigger that begins last, which is also where a search ends that
takes as much as it can before it tries the triggers one by one.
-/
namespace TokenLint.Guard

open Text

/-- The names of color functions, up to their arguments. -/
def functionNames : List String := ["rgb(", "rgba(", "hsl(", "hsla("]

/-- A trigger in front of a text. Of a color there are three digits at least, and all that there are
up to eight. -/
inductive Trigger (behind : List Char) : List Char → Prop
  | color {digits : List Char} (some : 3 ≤ digits.length) (few : digits.length ≤ 8)
      (hex : ∀ d ∈ digits, isHex d)
      (all : digits.length = 8 ∨ ∀ c ∈ behind.head?, isHex c = false) :
      Trigger behind ('#' :: digits)
  | function {name : String} (known : name ∈ functionNames) : Trigger behind name.toList
  | pixels : Trigger behind "px".toList

variable {cs : List Char} {n : Nat}

theorem triggerLength?_digits {ds rest : List Char} (hds : ∀ d ∈ ds, isHex d)
    (hrest : ∀ c ∈ rest.head?, isHex c = false) : triggerLength? ('#' :: (ds ++ rest)) =
      if 3 ≤ min 8 ds.length then some (min 8 ds.length + 1) else none := by
  rw [triggerLength?, takeWhile_isHex_append hds hrest]

theorem triggerLength?_of_ne (h : cs.head? ≠ some '#') : triggerLength? cs =
    if startsWith cs "rgb(".toList || startsWith cs "hsl(".toList then some 4
    else if startsWith cs "rgba(".toList || startsWith cs "hsla(".toList then some 5
    else if startsWith cs "px".toList then some 2 else none := by
  unfold triggerLength?
  split
  · exact absurd rfl h
  · rfl

/-- Of the digits of a color, as many as are counted are a trigger. -/
theorem trigger_of_digits {ds rest : List Char} (hds : ∀ d ∈ ds, isHex d)
    (hrest : ∀ c ∈ rest.head?, isHex c = false)
    (h : triggerLength? ('#' :: (ds ++ rest)) = some n) :
    ∃ trigger behind, '#' :: (ds ++ rest) = trigger ++ behind ∧ trigger.length = n ∧
      Trigger behind trigger := by
  rw [triggerLength?_digits hds hrest] at h
  split at h
  · rename_i hthree
    obtain rfl := Option.some.inj h
    have hlength : (ds.take 8).length = min 8 ds.length := List.length_take
    refine ⟨'#' :: ds.take 8, ds.drop 8 ++ rest, ?_, by simp, .color (by omega) (by omega)
      (fun d hd => hds d (List.mem_of_mem_take hd)) ?_⟩
    · rw [List.cons_append, ← List.append_assoc, List.take_append_drop]
    · rcases Nat.lt_or_ge ds.length 8 with hlt | hge
      · rw [List.drop_of_length_le (Nat.le_of_lt hlt), List.nil_append]
        exact .inr hrest
      · exact .inl (by omega)
  · cases h

/-- What is counted where no color begins is the name of a function or a unit. -/
theorem trigger_of_name (hhash : cs.head? ≠ some '#') (h : triggerLength? cs = some n) :
    ∃ trigger behind, cs = trigger ++ behind ∧ trigger.length = n ∧ Trigger behind trigger := by
  have hname : ∀ {name : String}, startsWith cs name.toList →
      (∀ behind, Trigger behind name.toList) → name.toList.length = n →
      ∃ trigger behind, cs = trigger ++ behind ∧ trigger.length = n ∧ Trigger behind trigger := by
    intro name hstarts htrigger hlength
    obtain ⟨behind, rfl⟩ := startsWith_iff.mp hstarts
    exact ⟨_, behind, rfl, hlength, htrigger behind⟩
  rw [triggerLength?_of_ne hhash] at h
  split at h
  · rename_i hfour
    obtain rfl := Option.some.inj h
    rcases Bool.or_eq_true_iff.mp hfour with hrgb | hhsl
    · exact hname hrgb (fun _ => .function (by decide)) (by decide)
    · exact hname hhsl (fun _ => .function (by decide)) (by decide)
  · split at h
    · rename_i hfive
      obtain rfl := Option.some.inj h
      rcases Bool.or_eq_true_iff.mp hfive with hrgba | hhsla
      · exact hname hrgba (fun _ => .function (by decide)) (by decide)
      · exact hname hhsla (fun _ => .function (by decide)) (by decide)
    · split at h
      · rename_i hpx
        obtain rfl := Option.some.inj h
        exact hname hpx (fun _ => .pixels) (by decide)
      · cases h

theorem trigger_of_triggerLength? (h : triggerLength? cs = some n) :
    ∃ trigger behind, cs = trigger ++ behind ∧ trigger.length = n ∧ Trigger behind trigger := by
  by_cases hhash : cs.head? = some '#'
  · obtain ⟨rest, rfl⟩ := List.head?_eq_some_iff.mp hhash
    obtain ⟨ds, rest, rfl, hds, hrest⟩ := exists_digits rest
    exact trigger_of_digits hds hrest h
  · exact trigger_of_name hhash h

theorem triggerLength?_of_trigger {trigger behind : List Char} (h : Trigger behind trigger) :
    triggerLength? (trigger ++ behind) = some trigger.length := by
  cases h with
  | @color digits some few hex all =>
    obtain ⟨ds, rest, rfl, hds, hrest⟩ := exists_digits behind
    have hrun : ∀ d ∈ digits ++ ds, isHex d := List.forall_mem_append.mpr ⟨hex, hds⟩
    have hcount : min 8 (digits ++ ds).length = digits.length := by
      rw [List.length_append]
      rcases all with hfull | hend
      · omega
      · cases ds with
        | nil =>
          rw [List.length_nil, Nat.add_zero]
          exact Nat.min_eq_right few
        | cons d ds =>
          have hhex := hds d List.mem_cons_self
          rw [hend d rfl] at hhex
          cases hhex
    rw [List.cons_append, ← List.append_assoc, triggerLength?_digits hrun hrest, hcount,
      if_pos some, List.length_cons]
  | @function name known =>
    simp only [functionNames, List.mem_cons, List.not_mem_nil, or_false] at known
    rcases known with rfl | rfl | rfl | rfl <;> simp [triggerLength?, startsWith]
  | pixels => simp [triggerLength?, startsWith]

theorem Trigger.ne_nil {trigger behind : List Char} (h : Trigger behind trigger) :
    trigger ≠ [] := by
  cases h with
  | color => exact List.cons_ne_nil _ _
  | @function name known =>
    have hall : ∀ name ∈ functionNames, name.toList ≠ [] := by decide
    exact hall name known
  | pixels => decide

/-! ### The triggers as they are tried -/

/-- Names, in the order in which they are tried. -/
def nameWays (names : List String) : Ways := fun cs =>
  (names.filter fun name => startsWith cs name.toList).map (·.toList.length)

/-- A color with as many digits as there are, then the functions, each first with an `a` in its
name, then the unit. -/
def triggerWays : Ways := fun cs =>
  digitWays [8, 7, 6, 5, 4, 3] cs ++ nameWays ["rgba(", "rgb(", "hsla(", "hsl(", "px"] cs

theorem head?_triggerWays (cs : List Char) : (triggerWays cs).head? = triggerLength? cs := by
  by_cases hhash : cs.head? = some '#'
  · obtain ⟨rest, rfl⟩ := List.head?_eq_some_iff.mp hhash
    obtain ⟨ds, rest, rfl, hds, hrest⟩ := exists_digits rest
    have hnames : nameWays ["rgba(", "rgb(", "hsla(", "hsl(", "px"] ('#' :: (ds ++ rest)) = [] := by
      simp [nameWays, startsWith]
    rw [triggerWays, hnames, List.append_nil, digitWays_append hds hrest,
      triggerLength?_digits hds hrest]
    rcases Nat.lt_or_ge ds.length 8 with hlt | hge
    · generalize ds.length = count at hlt
      interval_cases count <;> rfl
    · rw [Nat.min_eq_left hge, List.filter_cons_of_pos (by simpa using hge)]
      rfl
  · have hdigits : digitWays [8, 7, 6, 5, 4, 3] cs = [] := by
      cases cs with
      | nil => rfl
      | cons c cs => exact digitWays_cons (fun hc => hhash (by rw [hc]; rfl)) cs
    rw [triggerWays, hdigits, List.nil_append, triggerLength?_of_ne hhash, nameWays]
    -- no name is the front of another one, so it does not matter which is tried first
    have hother : ∀ long ∈ ["rgba(", "hsla("], ∀ short ∈ ["rgb(", "hsl("],
        startsWith cs long.toList → startsWith cs short.toList = false := by
      intro long hlong short hshort h
      rw [Bool.eq_false_iff, ne_eq, startsWith_iff]
      intro h'
      have hnone : ∀ long ∈ ["rgba(", "hsla("], ∀ short ∈ ["rgb(", "hsl("],
          ¬long.toList <+: short.toList ∧ ¬short.toList <+: long.toList := by decide
      rcases List.prefix_or_prefix_of_prefix (startsWith_iff.mp h) h' with hfront | hfront
      · exact (hnone long hlong short hshort).1 hfront
      · exact (hnone long hlong short hshort).2 hfront
    simp only [List.forall_mem_cons, List.not_mem_nil, false_implies, implies_true, and_true]
      at hother
    cases hrgba : startsWith cs "rgba(".toList <;> cases hrgb : startsWith cs "rgb(".toList <;>
      cases hhsla : startsWith cs "hsla(".toList <;> cases hhsl : startsWith cs "hsl(".toList <;>
      cases hpx : startsWith cs "px".toList <;> simp_all

/-! ### The trigger that begins last -/

/-- A trigger stands in a text behind some of its characters. -/
def HasTrigger (cs front trigger : List Char) : Prop :=
  ∃ behind, cs = front ++ (trigger ++ behind) ∧ Trigger behind trigger

/-- No trigger of a text begins behind this one. -/
structure LastTrigger (cs front trigger : List Char) : Prop where
  stands : HasTrigger cs front trigger
  last : ∀ front' trigger', HasTrigger cs front' trigger' → front'.length ≤ front.length

theorem hasTrigger_cons {c : Char} {front trigger : List Char} :
    HasTrigger (c :: cs) front trigger ↔ (front = [] ∧ HasTrigger (c :: cs) [] trigger) ∨
      ∃ front', front = c :: front' ∧ HasTrigger cs front' trigger := by
  cases front with
  | nil => simp
  | cons d front =>
    simp only [HasTrigger, List.cons_append, List.cons.injEq]
    constructor
    · rintro ⟨behind, ⟨rfl, rfl⟩, htrigger⟩
      exact .inr ⟨front, ⟨rfl, rfl⟩, behind, rfl, htrigger⟩
    · rintro (⟨hnil, -⟩ | ⟨front', ⟨rfl, rfl⟩, behind, rfl, htrigger⟩)
      · cases hnil
      · exact ⟨behind, ⟨rfl, rfl⟩, htrigger⟩

theorem hasTrigger_nil_iff {trigger : List Char} : HasTrigger cs [] trigger ↔
    triggerLength? cs = some trigger.length ∧ trigger = cs.take trigger.length := by
  constructor
  · rintro ⟨behind, rfl, htrigger⟩
    exact ⟨triggerLength?_of_trigger htrigger, (List.take_left).symm⟩
  · rintro ⟨hlength, htake⟩
    obtain ⟨trigger', behind, rfl, hsame, htrigger⟩ := trigger_of_triggerLength? hlength
    obtain rfl : trigger = trigger' := by rw [htake, ← hsame, List.take_left]
    exact ⟨behind, rfl, htrigger⟩

theorem lastTrigger?_eq_none_iff :
    lastTrigger? cs = none ↔ ∀ front trigger, ¬HasTrigger cs front trigger := by
  induction cs with
  | nil =>
    refine iff_of_true rfl ?_
    rintro front trigger ⟨behind, hnil, htrigger⟩
    obtain ⟨-, hnil⟩ := List.append_eq_nil_iff.mp hnil.symm
    exact htrigger.ne_nil (List.append_eq_nil_iff.mp hnil).1
  | cons c cs ih =>
    rw [lastTrigger?, Option.or_eq_none_iff, Option.map_eq_none_iff, ih]
    constructor
    · rintro ⟨hlater, hfirst⟩ front trigger h
      rcases hasTrigger_cons.mp h with ⟨-, hbegins⟩ | ⟨front', -, hlast⟩
      · rw [hasTrigger_nil_iff, hfirst] at hbegins
        cases hbegins.1
      · exact hlater front' trigger hlast
    · intro h
      refine ⟨fun front trigger hlater => h (c :: front) trigger ?_, ?_⟩
      · exact hasTrigger_cons.mpr (.inr ⟨front, rfl, hlater⟩)
      · refine Option.eq_none_iff_forall_ne_some.mpr fun n hn => ?_
        obtain ⟨trigger, behind, hcs, -, htrigger⟩ := trigger_of_triggerLength? hn
        exact h [] trigger ⟨behind, hcs, htrigger⟩

theorem lastTrigger_of_lastTrigger? (h : lastTrigger? cs = some n) :
    ∃ front trigger, LastTrigger cs front trigger ∧ n = (front ++ trigger).length := by
  induction cs generalizing n with
  | nil => cases h
  | cons c cs ih =>
    rw [lastTrigger?] at h
    cases hlater : lastTrigger? cs with
    | some k =>
      rw [hlater] at h
      obtain rfl := Option.some.inj h
      obtain ⟨front, trigger, ⟨hstands, hlast⟩, rfl⟩ := ih hlater
      refine ⟨c :: front, trigger, ⟨hasTrigger_cons.mpr (.inr ⟨front, rfl, hstands⟩), ?_⟩, rfl⟩
      intro front' trigger' h'
      rcases hasTrigger_cons.mp h' with ⟨rfl, -⟩ | ⟨front'', rfl, h''⟩
      · exact Nat.zero_le _
      · exact Nat.succ_le_succ (hlast front'' trigger' h'')
    | none =>
      rw [hlater] at h
      obtain ⟨trigger, behind, hcs, rfl, htrigger⟩ := trigger_of_triggerLength? h
      refine ⟨[], trigger, ⟨⟨behind, hcs, htrigger⟩, fun front' trigger' h' => ?_⟩, rfl⟩
      rcases hasTrigger_cons.mp h' with ⟨rfl, -⟩ | ⟨front'', -, h''⟩
      · exact Nat.le_refl _
      · exact absurd h'' (lastTrigger?_eq_none_iff.mp hlater front'' trigger')

/-- There is one trigger that begins last, and the guard counts up to its end. -/
theorem lastTrigger?_eq_some_iff : lastTrigger? cs = some n ↔
    ∃ front trigger, LastTrigger cs front trigger ∧ n = (front ++ trigger).length := by
  refine ⟨lastTrigger_of_lastTrigger?, ?_⟩
  rintro ⟨front, trigger, ⟨hstands, hlast⟩, rfl⟩
  cases hfound : lastTrigger? cs with
  | none => exact absurd hstands (lastTrigger?_eq_none_iff.mp hfound front trigger)
  | some n =>
    obtain ⟨front', trigger', ⟨hstands', hlast'⟩, rfl⟩ := lastTrigger_of_lastTrigger? hfound
    have hlength : front.length = front'.length :=
      Nat.le_antisymm (hlast' _ _ hstands) (hlast _ _ hstands')
    obtain ⟨behind, hcs, htrigger⟩ := hstands
    obtain ⟨behind', hcs', htrigger'⟩ := hstands'
    obtain ⟨rfl, hsame⟩ := List.append_inj (hcs.symm.trans hcs') hlength
    have hboth := triggerLength?_of_trigger htrigger
    rw [hsame, triggerLength?_of_trigger htrigger'] at hboth
    rw [List.length_append, List.length_append, Option.some.inj hboth]

/-- Behind the trigger that begins last there is none. -/
theorem lastTrigger?_drop (h : lastTrigger? cs = some n) : lastTrigger? (cs.drop n) = none := by
  obtain ⟨front, trigger, ⟨⟨behind, rfl, htrigger⟩, hlast⟩, rfl⟩ := lastTrigger_of_lastTrigger? h
  rw [← List.append_assoc, List.drop_left, lastTrigger?_eq_none_iff]
  rintro front' trigger' ⟨behind', rfl, htrigger'⟩
  have hle := hlast (front ++ trigger ++ front') trigger' ⟨behind', by simp, htrigger'⟩
  have hpos := List.length_pos_iff.mpr htrigger.ne_nil
  rw [List.length_append, List.length_append] at hle
  omega

end TokenLint.Guard
