import Mathlib.Data.List.Induction
import Mathlib.Data.List.Nodup
import TokenLint.Config.Resolver

/-!
# The history of a resolver

A resolver is what the calls to it have left. Each call comes with the files as they are at that
moment, so nothing is said of the files between calls. After any calls the resolver holds, for
each key, what the first successful call with this key returned.
-/
namespace TokenLint.Config.Resolver

/-- A request, and the files as they are when it is made. -/
structure Call where
  tree : FileTree
  request : Request

def Call.key (c : Call) : Key := c.request.key

/-- What the files hold for the request. -/
def Call.load (c : Call) : Except Error Config := c.request.load c.tree

/-- What some calls leave of a new resolver. -/
def after (calls : List Call) : Resolver :=
  calls.foldl (fun r c => (r.resolve c.tree c.request).1) {}

/-- What a call returns that follows on others. -/
def answer (calls : List Call) (c : Call) : Except Error Resolved :=
  ((after calls).resolve c.tree c.request).2

/-- Some call with a key has returned a configuration. -/
def Succeeded (calls : List Call) (key : Key) : Prop :=
  ∃ front c back, calls = front ++ c :: back ∧ c.key = key ∧ (answer front c).isOk

/-! ### One call -/

theorem search_append (key : Key) (as bs : List (Key × Config)) : ∀ number,
    search key number (as ++ bs) =
      (search key number as).or (search key (number + as.length) bs) := by
  induction as with
  | nil => exact fun _ => rfl
  | cons a as ih =>
    intro number
    obtain ⟨k, config⟩ := a
    rw [List.cons_append, search, search, List.length_cons]
    split
    · rfl
    · rw [ih, Nat.add_right_comm, Nat.add_assoc]

/-- What is found stands among the entries at its number. -/
theorem getElem?_of_search {key : Key} {found : Resolved} (es : List (Key × Config)) :
    ∀ {number}, search key number es = some found →
      number ≤ found.number ∧ es[found.number - number]? = some (key, found.config) := by
  induction es with
  | nil => exact fun h => by cases h
  | cons e es ih =>
    intro number h
    obtain ⟨k, config⟩ := e
    rw [search] at h
    split at h
    · rename_i hk
      obtain rfl := Option.some.inj h
      rw [beq_iff_eq] at hk
      simp [hk]
    · obtain ⟨hle, hget⟩ := ih h
      have hsub : found.number - number = found.number - (number + 1) + 1 := by omega
      rw [hsub, List.getElem?_cons_succ]
      exact ⟨by omega, hget⟩

def keys (r : Resolver) : List Key := r.entries.map (·.1)

theorem mem_keys {r : Resolver} {key : Key} : key ∈ r.keys ↔ (r.get? key).isSome := by
  have hsearch : ∀ (es : List (Key × Config)) number,
      key ∈ es.map (·.1) ↔ (search key number es).isSome := by
    intro es
    induction es with
    | nil => simp [search]
    | cons e es ih =>
      intro number
      obtain ⟨k, config⟩ := e
      rw [List.map_cons, List.mem_cons, search]
      split
      · rename_i hk
        exact iff_of_true (.inl (beq_iff_eq.mp hk).symm) rfl
      · rename_i hk
        rw [ih (number + 1), or_iff_right]
        exact fun h => hk (beq_iff_eq.mpr h.symm)
  exact hsearch r.entries 0

theorem getElem?_of_get? {r : Resolver} {key : Key} {found : Resolved}
    (h : r.get? key = some found) : r.entries[found.number]? = some (key, found.config) :=
  (getElem?_of_search r.entries h).2

/-- Either the key is held, or the files are read; only what was read well is kept. -/
theorem resolve_cases (r : Resolver) (tree : FileTree) (request : Request) :
    (∃ found, r.get? request.key = some found ∧ r.resolve tree request = (r, .ok found)) ∨
    (∃ e, r.get? request.key = none ∧ request.load tree = .error e ∧
      r.resolve tree request = (r, .error e)) ∨
    ∃ config, r.get? request.key = none ∧ request.load tree = .ok config ∧
      r.resolve tree request =
        (⟨r.entries ++ [(request.key, config)]⟩, .ok ⟨r.size, config⟩) := by
  unfold resolve
  cases hget : r.get? request.key with
  | some found => exact .inl ⟨found, rfl, rfl⟩
  | none =>
    cases hload : request.load tree with
    | error e => exact .inr (.inl ⟨e, rfl, rfl, rfl⟩)
    | ok config => exact .inr (.inr ⟨config, rfl, rfl, rfl⟩)

/-- A call adds what it returns under its own key, unless there was something. -/
theorem get?_resolve (r : Resolver) (tree : FileTree) (request : Request) (key : Key) :
    (r.resolve tree request).1.get? key = (r.get? key).or
      (if request.key = key then (r.resolve tree request).2.toOption else none) := by
  rcases r.resolve_cases tree request with ⟨found, hget, h⟩ | ⟨e, -, -, h⟩ | ⟨config, -, -, h⟩
  · rw [h]
    by_cases hkey : request.key = key
    · rw [← hkey, hget]
      rfl
    · rw [if_neg hkey, Option.or_none]
  · rw [h]
    have hnone : (if request.key = key then (Except.error e : Except Error Resolved).toOption
        else none) = none := by
      split <;> rfl
    rw [hnone, Option.or_none]
  · rw [h, get?, search_append, Nat.zero_add, get?]
    congr 1
    rw [search, search]
    by_cases hkey : request.key = key
    · rw [if_pos (beq_iff_eq.mpr hkey), if_pos hkey]
      rfl
    · rw [if_neg (by simpa using hkey), if_neg hkey]

/-! ### Calls one after another -/

variable {calls : List Call} {c d : Call} {key : Key} {found : Resolved}

theorem after_concat (calls : List Call) (c : Call) :
    after (calls ++ [c]) = ((after calls).resolve c.tree c.request).1 := by
  rw [after, List.foldl_append]
  rfl

theorem get?_after_concat (calls : List Call) (c : Call) (key : Key) :
    (after (calls ++ [c])).get? key = ((after calls).get? key).or
      (if c.key = key then (answer calls c).toOption else none) := by
  rw [after_concat]
  exact get?_resolve _ _ _ key

/-- What is said of some call and the calls before it, when one more call is made. -/
theorem exists_cut_concat {P : List Call → Call → Prop} :
    (∃ front d back, calls ++ [c] = front ++ d :: back ∧ P front d) ↔
      (∃ front d back, calls = front ++ d :: back ∧ P front d) ∨ P calls c := by
  constructor
  · rintro ⟨front, d, back, hcut, h⟩
    rcases List.eq_nil_or_concat back with rfl | ⟨back, last, rfl⟩
    · obtain ⟨rfl, hlast⟩ := List.append_inj' hcut rfl
      obtain rfl := List.singleton_inj.mp hlast
      exact .inr h
    · rw [List.concat_eq_append, ← List.cons_append, ← List.append_assoc] at hcut
      exact .inl ⟨front, d, back, (List.append_inj' hcut rfl).1, h⟩
  · rintro (⟨front, d, back, rfl, h⟩ | h)
    · exact ⟨front, d, back ++ [c], by rw [List.append_assoc, List.cons_append], h⟩
    · exact ⟨calls, c, [], rfl, h⟩

theorem succeeded_concat : Succeeded (calls ++ [c]) key ↔
    Succeeded calls key ∨ c.key = key ∧ (answer calls c).isOk :=
  exists_cut_concat (P := fun front d => d.key = key ∧ (answer front d).isOk)

/-- The keys that are held are those that have succeeded. -/
theorem isSome_get?_after (calls : List Call) (key : Key) :
    ((after calls).get? key).isSome ↔ Succeeded calls key := by
  induction calls using List.reverseRecOn with
  | nil =>
    refine iff_of_false (by simp [after, get?, search]) ?_
    rintro ⟨front, c, back, hcut, -⟩
    simp at hcut
  | append_singleton calls c ih =>
    rw [get?_after_concat, Option.isSome_or, Bool.or_eq_true, ih, succeeded_concat]
    refine or_congr_right ?_
    by_cases hkey : c.key = key
    · rw [if_pos hkey]
      cases answer calls c <;> simp [hkey, Except.toOption, Except.isOk, Except.toBool]
    · rw [if_neg hkey]
      simp [hkey]

theorem get?_after_eq_none : (after calls).get? key = none ↔ ¬Succeeded calls key := by
  rw [← isSome_get?_after, Bool.not_eq_true, Option.isSome_eq_false_iff, Option.isNone_iff_eq_none]

/-- A key holds what the first successful call with it returned. -/
theorem get?_after_eq_some (calls : List Call) (key : Key) (found : Resolved) :
    (after calls).get? key = some found ↔ ∃ front c back, calls = front ++ c :: back ∧
      c.key = key ∧ ¬Succeeded front key ∧ answer front c = .ok found := by
  induction calls using List.reverseRecOn with
  | nil =>
    refine iff_of_false (by simp [after, get?, search]) ?_
    rintro ⟨front, c, back, hcut, -⟩
    simp at hcut
  | append_singleton calls c ih =>
    rw [exists_cut_concat (P := fun front d => d.key = key ∧ ¬Succeeded front key ∧
      answer front d = .ok found), ← ih, get?_after_concat, Option.or_eq_some_iff]
    refine or_congr_right ?_
    rw [get?_after_eq_none]
    by_cases hkey : c.key = key
    · rw [if_pos hkey]
      cases answer calls c <;> simp [hkey, Except.toOption]
    · rw [if_neg hkey]
      simp [hkey]

/-- What is held stays, whatever calls follow. -/
theorem get?_after_append (h : (after calls).get? key = some found) (more : List Call) :
    (after (calls ++ more)).get? key = some found := by
  induction more using List.reverseRecOn with
  | nil => rwa [List.append_nil]
  | append_singleton more c ih => rw [← List.append_assoc, get?_after_concat, ih, Option.some_or]

theorem answer_of_get? (h : (after calls).get? c.key = some found) :
    answer calls c = .ok found := by
  rcases (after calls).resolve_cases c.tree c.request with
    ⟨_, hget, hr⟩ | ⟨_, hnone, -⟩ | ⟨_, hnone, -⟩
  · obtain rfl := Option.some.inj (h.symm.trans hget)
    rw [answer, hr]
  · cases h.symm.trans hnone
  · cases h.symm.trans hnone

/-- A key that has not succeeded is read from the files. -/
theorem answer_of_not_succeeded (h : ¬Succeeded calls c.key) :
    (answer calls c).map (·.config) = c.load := by
  have hnone : (after calls).get? c.request.key = none := get?_after_eq_none.mpr h
  rcases (after calls).resolve_cases c.tree c.request with
    ⟨_, hget, -⟩ | ⟨_, -, hl, hr⟩ | ⟨_, -, hl, hr⟩
  · cases hget.symm.trans hnone
  · rw [answer, hr, Call.load, hl]
    rfl
  · rw [answer, hr, Call.load, hl]
    rfl

/-- Once a call has returned an instance, all later calls with its key return that instance. -/
theorem answer_again {front mid : List Call} (h : answer front c = .ok found)
    (hkey : d.key = c.key) : answer (front ++ c :: mid) d = .ok found := by
  have hheld : (after (front ++ [c])).get? c.key = some found := by
    rw [get?_after_concat, if_pos rfl, h]
    cases hget : (after front).get? c.key with
    | none => rfl
    | some other =>
      have hanswer := answer_of_get? hget
      rw [h] at hanswer
      rw [Except.ok.inj hanswer]
      rfl
  have hlater := get?_after_append hheld mid
  rw [List.append_assoc, List.singleton_append, ← hkey] at hlater
  exact answer_of_get? hlater

/-- A call that fails changes nothing. -/
theorem after_of_error {e : Error} (h : answer calls c = .error e) :
    after (calls ++ [c]) = after calls := by
  rw [after_concat]
  rw [answer] at h
  rcases (after calls).resolve_cases c.tree c.request with
    ⟨_, -, hr⟩ | ⟨_, -, -, hr⟩ | ⟨_, -, -, hr⟩
  · rw [hr]
  · rw [hr]
  · rw [hr] at h
    cases h

theorem nodup_keys_after (calls : List Call) : (after calls).keys.Nodup := by
  induction calls using List.reverseRecOn with
  | nil => exact List.nodup_nil
  | append_singleton calls c ih =>
    rw [after_concat]
    rcases (after calls).resolve_cases c.tree c.request with
      ⟨_, -, hr⟩ | ⟨_, -, -, hr⟩ | ⟨config, hnone, -, hr⟩
    · rwa [hr]
    · rwa [hr]
    · rw [hr, keys, List.map_append, List.map_singleton]
      refine ih.append (List.nodup_singleton _) ?_
      intro k hk hnew
      rw [List.mem_singleton.mp hnew] at hk
      have hsome := mem_keys.mp hk
      rw [hnone] at hsome
      cases hsome

end TokenLint.Config.Resolver
