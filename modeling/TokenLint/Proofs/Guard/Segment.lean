import TokenLint.Proofs.Guard.Trigger
import TokenLint.Proofs.Path.Components

/-!
# Bracketed values, segment by segment

The brackets that close cut a text into segments. Of each segment that has a trigger behind its
first bracket the guard reports one value, from that bracket to the end of the trigger that begins
last, and of the others nothing.
-/
namespace TokenLint.Guard

open Text

/-! ### Values in a text -/

theorem bracketedFrom_eq (n : Nat) (cs : List Char) :
    bracketedFrom n cs = bracketed (cs.drop n) := by
  induction n generalizing cs with
  | zero => rfl
  | succ n ih =>
    cases cs with
    | nil => rfl
    | cons c cs => rw [bracketedFrom, ih, List.drop_succ_cons]

theorem bracketed_cons_of_ne {c : Char} (hc : c ≠ '[') (cs : List Char) :
    bracketed (c :: cs) = bracketed cs := by
  rw [bracketed, bracketedFrom, if_neg (by simpa using hc)]
  rfl

theorem bracketed_cons (cs : List Char) : bracketed ('[' :: cs) =
    match lastTrigger? (opened cs) with
    | some n => ('[' :: cs.take n) :: bracketed (cs.drop n)
    | none => bracketed cs := by
  rw [bracketed, bracketedFrom, if_pos (by decide), opened]
  cases lastTrigger? (cs.takeWhile (· != ']')) with
  | none => rfl
  | some n => exact congrArg _ (bracketedFrom_eq n cs)

variable {segment inner tail value : List Char}

/-- Where no trigger is left up to the next closing bracket, nothing is found before that. -/
theorem bracketed_append_of_none (hnone : lastTrigger? inner = none) (h : ']' ∉ inner)
    (htail : Closes tail) : bracketed (inner ++ tail) = bracketed tail := by
  induction inner with
  | nil => rfl
  | cons c inner ih =>
    rw [lastTrigger?, Option.or_eq_none_iff, Option.map_eq_none_iff] at hnone
    have hinner : ']' ∉ inner := fun hmem => h (List.mem_cons_of_mem c hmem)
    have hrest := ih hnone.1 hinner
    by_cases hc : c = '['
    · rw [hc, List.cons_append, bracketed_cons, opened_append hinner htail, hnone.1]
      exact hrest
    · rw [List.cons_append, bracketed_cons_of_ne hc, hrest]

/-! ### The value of a segment -/

/-- What the guard reports of a segment. -/
def offending? (segment : List Char) : Option (List Char) :=
  match segment.dropWhile (· != '[') with
  | [] => none
  | c :: inner => (lastTrigger? inner).map fun n => c :: inner.take n

/-- A value of a segment goes from its first bracket to the end of the trigger that begins last. -/
def Offends (segment value : List Char) : Prop :=
  ∃ front inner before trigger, segment = front ++ '[' :: inner ∧ '[' ∉ front ∧
    LastTrigger inner before trigger ∧ value = '[' :: (before ++ trigger)

theorem offending?_of_not_mem (h : '[' ∉ segment) : offending? segment = none := by
  have hdrop : segment.dropWhile (· != '[') = [] :=
    List.dropWhile_eq_nil_iff.mpr (bne_of_not_mem h)
  rw [offending?, hdrop]

theorem offending?_append {front : List Char} (h : '[' ∉ front) (inner : List Char) :
    offending? (front ++ '[' :: inner) = (lastTrigger? inner).map fun n => '[' :: inner.take n := by
  have hdrop : (front ++ '[' :: inner).dropWhile (· != '[') = '[' :: inner := by
    rw [List.dropWhile_append_of_pos (bne_of_not_mem h), List.dropWhile_cons_of_neg (by decide)]
  rw [offending?, hdrop]

theorem offending?_eq_some_iff : offending? segment = some value ↔ Offends segment value := by
  have htake : ∀ {inner before trigger : List Char}, HasTrigger inner before trigger →
      inner.take (before ++ trigger).length = before ++ trigger := by
    rintro inner before trigger ⟨behind, rfl, -⟩
    rw [← List.append_assoc, List.take_left]
  constructor
  · intro h
    by_cases hmem : '[' ∈ segment
    · obtain ⟨front, inner, rfl, hfront⟩ := List.eq_append_cons_of_mem hmem
      rw [offending?_append hfront] at h
      obtain ⟨n, hn, rfl⟩ := Option.map_eq_some_iff.mp h
      obtain ⟨before, trigger, hlast, rfl⟩ := lastTrigger?_eq_some_iff.mp hn
      exact ⟨front, inner, before, trigger, rfl, hfront, hlast, by rw [htake hlast.stands]⟩
    · rw [offending?_of_not_mem hmem] at h
      cases h
  · rintro ⟨front, inner, before, trigger, rfl, hfront, hlast, rfl⟩
    have hlength := lastTrigger?_eq_some_iff.mpr ⟨before, trigger, hlast, rfl⟩
    rw [offending?_append hfront, hlength, Option.map_some, htake hlast.stands]

/-- In front of a closing bracket or the end of the text stands the value of the segment, if there
is one. -/
theorem bracketed_append (h : ']' ∉ segment) (htail : Closes tail) :
    bracketed (segment ++ tail) = (offending? segment).toList ++ bracketed tail := by
  have hskip : ∀ {front : List Char} (rest : List Char), '[' ∉ front →
      bracketed (front ++ rest) = bracketed rest := by
    intro front rest hfront
    induction front with
    | nil => rfl
    | cons c front ih =>
      obtain ⟨hc, hfront⟩ := not_or.mp (List.mem_cons.not.mp hfront)
      rw [List.cons_append, bracketed_cons_of_ne (Ne.symm hc), ih hfront]
  by_cases hmem : '[' ∈ segment
  · obtain ⟨front, inner, rfl, hfront⟩ := List.eq_append_cons_of_mem hmem
    have hinner : ']' ∉ inner := fun hin => h (by simp [hin])
    rw [List.append_assoc, hskip _ hfront, List.cons_append, bracketed_cons,
      opened_append hinner htail, offending?_append hfront]
    cases hlast : lastTrigger? inner with
    | none => exact bracketed_append_of_none hlast hinner htail
    | some n =>
      -- the search goes on inside the segment, but there is no trigger any more
      obtain ⟨before, trigger, ⟨⟨behind, rfl, -⟩, -⟩, rfl⟩ := lastTrigger?_eq_some_iff.mp hlast
      have hle : (before ++ trigger).length ≤ (before ++ (trigger ++ behind)).length := by
        rw [List.length_append, List.length_append, List.length_append]
        omega
      have hnone := lastTrigger?_drop hlast
      have hdrop : ']' ∉ (before ++ (trigger ++ behind)).drop (before ++ trigger).length :=
        fun hin => hinner (List.mem_of_mem_drop hin)
      dsimp only
      rw [List.take_append_of_le_length hle, List.drop_append_of_le_length hle,
        bracketed_append_of_none hnone hdrop htail]
      rfl
  · rw [hskip tail hmem, offending?_of_not_mem hmem]
    rfl

/-- One value for each segment that has one, in order. -/
theorem bracketed_eq (cs : List Char) : bracketed cs = (splitOn ']' cs).filterMap offending? := by
  induction hlength : cs.length using Nat.strong_induction_on generalizing cs with
  | _ length ih =>
    subst hlength
    by_cases hmem : ']' ∈ cs
    · obtain ⟨segment, rest, rfl, hsegment⟩ := List.eq_append_cons_of_mem hmem
      have hshort : rest.length < (segment ++ ']' :: rest).length := by
        rw [List.length_append, List.length_cons]
        omega
      rw [bracketed_append hsegment (closes_cons rest), bracketed_cons_of_ne (by decide),
        ih rest.length hshort rest rfl, splitOn_append, splitOn_of_not_mem hsegment,
        List.filterMap_append]
      cases hvalue : offending? segment <;> simp [hvalue]
    · have hlast := bracketed_append hmem closes_nil
      rw [List.append_nil] at hlast
      rw [hlast, splitOn_of_not_mem hmem]
      cases hvalue : offending? cs <;> simp [hvalue, bracketed, bracketedFrom]

/-! ### The search -/

/-- A bracket, then as much as there is before the next one closes and behind which a trigger can be
taken. -/
def valueWays : Ways
  | '[' :: cs => (List.range ((opened cs).length + 1)).reverse.flatMap fun k =>
      (triggerWays (cs.drop k)).map (k + 1 + ·)
  | _ => []

/-- No name of a trigger goes beyond a bracket that closes. -/
theorem startsWith_append {name : List Char} (hname : ']' ∉ name) (htail : Closes tail)
    (cs : List Char) : startsWith (cs ++ tail) name = startsWith cs name := by
  induction cs generalizing name with
  | nil =>
    cases name with
    | nil => cases tail <;> rfl
    | cons x name =>
      cases tail with
      | nil => rfl
      | cons c tail =>
        obtain rfl := htail c rfl
        have hx : ']' ≠ x := fun hx => hname (hx ▸ List.mem_cons_self)
        rw [List.nil_append, startsWith, startsWith, beq_eq_false_iff_ne.mpr hx, Bool.false_and]
  | cons c cs ih =>
    cases name with
    | nil => rfl
    | cons x name =>
      rw [List.cons_append, startsWith, startsWith, ih fun h => hname (List.mem_cons_of_mem x h)]

theorem triggerLength?_append (h : ']' ∉ inner) (htail : Closes tail) :
    triggerLength? (inner ++ tail) = triggerLength? inner := by
  have hsharp : tail.head? ≠ some '#' := fun hhead => absurd (htail '#' hhead) (by decide)
  by_cases hhash : inner.head? = some '#'
  · obtain ⟨rest, rfl⟩ := List.head?_eq_some_iff.mp hhash
    obtain ⟨ds, rest, rfl, hds, hrest⟩ := exists_digits rest
    have hend : ∀ c ∈ (rest ++ tail).head?, isHex c = false := by
      cases rest with
      | nil =>
        intro c hc
        rw [htail c hc]
        decide
      | cons c rest => exact hrest
    rw [List.cons_append, List.append_assoc, triggerLength?_digits hds hend,
      triggerLength?_digits hds hrest]
  · have hhash' : (inner ++ tail).head? ≠ some '#' := by
      cases inner with
      | nil => exact hsharp
      | cons c inner => exact hhash
    have hnames : ∀ name ∈ ["rgb(", "hsl(", "rgba(", "hsla(", "px"],
        startsWith (inner ++ tail) name.toList = startsWith inner name.toList := by
      intro name hname
      have hnone : ∀ name ∈ ["rgb(", "hsl(", "rgba(", "hsla(", "px"], ']' ∉ name.toList := by decide
      exact startsWith_append (hnone name hname) htail inner
    simp only [List.forall_mem_cons] at hnames
    rw [triggerLength?_of_ne hhash, triggerLength?_of_ne hhash', hnames.1, hnames.2.1, hnames.2.2.1,
      hnames.2.2.2.1, hnames.2.2.2.2.1]

/-- The most that can be taken in front of a trigger is what stands before the last one. -/
theorem head?_flatMap_triggerWays (h : ']' ∉ inner) (htail : Closes tail) :
    ((List.range (inner.length + 1)).reverse.flatMap fun k =>
      (triggerWays ((inner ++ tail).drop k)).map (k + 1 + ·)).head? =
        (lastTrigger? inner).map (· + 1) := by
  induction inner with
  | nil =>
    have hnone : (triggerWays tail).head? = none := by
      rw [head?_triggerWays]
      exact triggerLength?_append List.not_mem_nil htail
    simp [List.head?_eq_none_iff.mp hnone, lastTrigger?]
  | cons c inner ih =>
    have hlater : ((List.range (inner.length + 1)).reverse.flatMap fun k =>
        (triggerWays ((c :: inner ++ tail).drop (k + 1))).map (k + 1 + 1 + ·)) =
        ((List.range (inner.length + 1)).reverse.flatMap fun k =>
          (triggerWays ((inner ++ tail).drop k)).map (k + 1 + ·)).map (· + 1) := by
      rw [List.map_flatMap]
      refine List.flatMap_congr fun k _ => ?_
      rw [List.cons_append, List.drop_succ_cons, List.map_map]
      refine List.map_congr_left fun n _ => ?_
      rw [Function.comp_apply]
      omega
    rw [List.length_cons, List.range_succ_eq_map, List.reverse_cons, ← List.map_reverse,
      List.flatMap_append, List.flatMap_map, List.head?_append]
    simp only [Nat.succ_eq_add_one] at hlater ⊢
    rw [hlater, List.head?_map, ih fun hin => h (List.mem_cons_of_mem c hin), lastTrigger?,
      List.flatMap_singleton, List.drop_zero, List.head?_map, head?_triggerWays,
      triggerLength?_append h htail, Option.map_or, Option.map_map]
    congr 1
    exact congrArg (Option.map · _) (funext fun n => Nat.add_comm _ n)

theorem head?_valueWays (cs : List Char) :
    (valueWays ('[' :: cs)).head? = (lastTrigger? (opened cs)).map (· + 1) := by
  have hcs : cs = opened cs ++ cs.dropWhile (· != ']') := List.takeWhile_append_dropWhile.symm
  have hopened : ']' ∉ opened cs := fun h => by
    simpa using List.all_eq_true.mp List.all_takeWhile _ h
  have hcloses : Closes (cs.dropWhile (· != ']')) := by
    intro c hc
    have hnot := List.head?_dropWhile_not (· != ']') cs
    rw [Option.mem_def.mp hc] at hnot
    simpa using hnot
  rw [valueWays]
  conv_lhs => rw [hcs]
  rw [opened_append hopened hcloses]
  exact head?_flatMap_triggerWays hopened hcloses

theorem map_text_searchFrom (skipped place : Nat) (cs : List Char) :
    (searchFrom valueWays skipped place cs).map (·.text) = bracketedFrom skipped cs := by
  induction cs generalizing skipped place with
  | nil => cases skipped <;> rfl
  | cons c cs ih =>
    cases skipped with
    | succ skipped => rw [searchFrom, bracketedFrom, ih]
    | zero =>
      rw [searchFrom, bracketedFrom]
      by_cases hc : c = '['
      · subst hc
        rw [head?_valueWays, opened, if_pos (by decide)]
        cases lastTrigger? (cs.takeWhile (· != ']')) with
        | none => exact ih 0 _
        | some n => exact congrArg _ (ih n _)
      · have hnone : valueWays (c :: cs) = [] := by
          unfold valueWays
          split
          · rename_i heq
            exact absurd (List.cons.inj heq).1 hc
          · rfl
        rw [hnone, if_neg (by simpa using hc)]
        exact ih 0 _

theorem filter_arbitrary (file text : String) : (scan file text).filter (·.kind = .arbitrary) =
    (bracketed text.toList).map fun value => ⟨file, .arbitrary, String.ofList value⟩ := by
  rw [scan, List.filter_append, List.filter_eq_nil_iff.mpr, List.filter_eq_self.mpr,
    List.nil_append]
  · intro hit hhit
    obtain ⟨value, -, rfl⟩ := List.mem_map.mp hhit
    rfl
  · intro hit hhit
    obtain ⟨literal, -, rfl⟩ := List.mem_map.mp hhit
    simp

/-- What the hits for bracketed values in a text are, by its segments between brackets that
close. -/
structure BracketHits (file text : String) (hits : List Hit) : Prop where
  hits_eq : hits = ((splitOn ']' text.toList).filterMap offending?).map
    (fun value => ⟨file, .arbitrary, String.ofList value⟩)
  joined : [']'].intercalate (splitOn ']' text.toList) = text.toList
  closed : ∀ segment ∈ splitOn ']' text.toList, ']' ∉ segment
  /-- A segment has a value if some trigger begins behind its first bracket. -/
  isSome_iff : ∀ segment, (offending? segment).isSome ↔ ∃ front inner before trigger,
    segment = front ++ '[' :: inner ∧ '[' ∉ front ∧ HasTrigger inner before trigger
  eq_some_iff : ∀ segment value, offending? segment = some value ↔ Offends segment value
  /-- A search from left to right that takes as much as it can comes upon the same values. -/
  search_eq : (search valueWays text.toList).map (·.text) =
    (splitOn ']' text.toList).filterMap offending?

/-- The hits for bracketed values, in order, are the values of the segments between brackets that
close: a segment has one if some trigger begins behind its first bracket, and it ends with the last
of them. They are what a search from left to right comes upon that takes as much as it can. -/
theorem bracketHits_exact (file text : String) :
    BracketHits file text ((scan file text).filter (·.kind = .arbitrary)) := by
  constructor
  case hits_eq => rw [filter_arbitrary, bracketed_eq]
  case joined => exact intercalate_splitOn _ _
  case closed => exact fun _ => not_mem_of_mem_splitOn
  case eq_some_iff => exact fun _ _ => offending?_eq_some_iff
  case isSome_iff =>
    intro segment
    rw [Option.isSome_iff_exists]
    simp only [offending?_eq_some_iff]
    constructor
    · rintro ⟨value, front, inner, before, trigger, hsegment, hfront, hlast, -⟩
      exact ⟨front, inner, before, trigger, hsegment, hfront, hlast.stands⟩
    · rintro ⟨front, inner, before, trigger, hsegment, hfront, htrigger⟩
      cases hlast : lastTrigger? inner with
      | none => exact absurd htrigger (lastTrigger?_eq_none_iff.mp hlast before trigger)
      | some n =>
        obtain ⟨before', trigger', hlast', -⟩ := lastTrigger?_eq_some_iff.mp hlast
        exact ⟨_, front, inner, before', trigger', hsegment, hfront, hlast', rfl⟩
  case search_eq =>
    rw [search, map_text_searchFrom, ← bracketed_eq]
    rfl

/-- A second bracket and what is behind the last trigger do not matter; of a longer run of digits
eight count. -/
example : (scan "a.mdx" "rgb(] [a[b 3px x] [#1234567890] [50%] [hsl(").map (·.value) =
    ["[a[b 3px", "[#12345678", "[hsl("] := by decide +kernel

end TokenLint.Guard
