import TokenLint.Proofs.Config.History
import TokenLint.Proofs.FileTree.Lookup

/-!
# The resolver is a cache

Over any calls, with any changes to the files between them, a resolver returns for a key what was
read when the key first succeeded. Where the files do not change that is what a new resolver would
read, if paths are looked up by their components: requests with one key then ask for the same files.
-/
namespace TokenLint

open TokenLint.Path

/-- What some paths lead to is seen from their components. -/
def FileTree.SeesComponents (tree : FileTree) (P : String → Prop) : Prop :=
  ∀ p q, P p → P q → components p = components q → tree.find p = tree.find q

variable {tree : FileTree} {p q : String}

theorem Settings.load_congr (h : tree.find p = tree.find q) {settings : Settings}
    (hp : Settings.load tree p = .ok settings) : Settings.load tree q = .ok settings := by
  rw [load, FileTree.contains, FileTree.read, h] at hp
  rw [load, FileTree.contains, FileTree.read]
  split at hp
  · rename_i hin
    rw [if_pos hin]
    split at hp
    · cases hp
    · rw [parse] at hp ⊢
      split at hp
      · cases hp
      · exact hp
  · rename_i hin
    rw [if_neg hin]
    exact hp

theorem Allowlist.load_congr (h : tree.find p = tree.find q) {allowlist : Allowlist}
    (hp : Allowlist.load tree p = .ok allowlist) : Allowlist.load tree q = .ok allowlist := by
  rw [load, FileTree.contains, FileTree.read, h] at hp
  rw [load, FileTree.contains, FileTree.read]
  split at hp
  · rename_i hin
    rw [if_pos hin]
    split at hp
    · cases hp
    · split at hp
      · cases hp
      · exact hp
  · rename_i hin
    rw [if_neg hin]
    exact hp

namespace Config

/-- Configurations that are the same but for the spelling of their paths. -/
structure Same (a b : Config) : Prop where
  configPath : a.configPath.map components = b.configPath.map components
  allowlistPath : a.allowlistPath.map components = b.allowlistPath.map components
  rest : { a with configPath := b.configPath, allowlistPath := b.allowlistPath } = b

namespace Request

variable {r s : Request}

/-- The settings of a request. -/
def settings (r : Request) (tree : FileTree) : Except Error Settings :=
  (r.joined r.configPath).elim (.ok {}) (Settings.load tree)

/-- Where the allowlist is, given the settings. -/
def allowlistAt (r : Request) (settings : Settings) : Option String :=
  (r.joined r.allowlistPath).or (r.joined settings.allowlistPath)

/-- The paths that a request looks up. -/
def Asks (r : Request) (tree : FileTree) (path : String) : Prop :=
  r.joined r.configPath = some path ∨
    (r.settings tree).toOption.bind r.allowlistAt = some path

/-- The allowlist of a request, given the settings. -/
def allowlist (r : Request) (tree : FileTree) (settings : Settings) : Except Error Allowlist :=
  (r.allowlistAt settings).elim (.ok {}) (Allowlist.load tree)

/-- The merged configuration, with the paths that it is from. -/
def located (r : Request) (settings : Settings) (merged : Config) : Config :=
  { merged with configPath := r.joined r.configPath, allowlistPath := r.allowlistAt settings }

theorem load_eq (r : Request) (tree : FileTree) : r.load tree =
    match r.settings tree with
    | .error e => .error e
    | .ok settings =>
      match r.allowlist tree settings with
      | .error e => .error e
      | .ok allowlist => (Config.merge settings allowlist).map (r.located settings) := rfl

theorem load_eq_ok {config : Config} : r.load tree = .ok config ↔
    ∃ settings allowlist merged, r.settings tree = .ok settings ∧
      r.allowlist tree settings = .ok allowlist ∧
      Config.merge settings allowlist = .ok merged ∧ config = r.located settings merged := by
  rw [load_eq]
  constructor
  · intro h
    split at h
    · cases h
    · rename_i settings hsettings
      split at h
      · cases h
      · rename_i allowlist hallow
        cases hmerge : Config.merge settings allowlist with
        | error e =>
          rw [hmerge] at h
          cases h
        | ok merged =>
          rw [hmerge] at h
          exact ⟨settings, allowlist, merged, hsettings, hallow, hmerge, (Except.ok.inj h).symm⟩
  · rintro ⟨settings, allowlist, merged, hsettings, hallow, hmerge, rfl⟩
    simp only [hsettings, hallow, hmerge, Except.map]

/-- What is read under a path, if there is one, is read under another with the same components. -/
theorem elim_congr {α : Type} {read : String → Except Error α} {default a : α}
    {path path' : Option String} (hsame : path.map components = path'.map components)
    (hread : ∀ p p', path = some p → path' = some p' → components p = components p' →
      read p = .ok a → read p' = .ok a)
    (h : path.elim (.ok default) read = .ok a) : path'.elim (.ok default) read = .ok a := by
  cases path with
  | none =>
    cases path' with
    | none => exact h
    | some p' => cases hsame
  | some p =>
    cases path' with
    | none => cases hsame
    | some p' => exact hread p p' rfl rfl (Option.some.inj hsame) h

/-- Requests with one key have the same places for an allowlist. -/
theorem allowlistAt_congr (hkey : r.key = s.key) (settings : Settings) :
    (r.allowlistAt settings).map components = (s.allowlistAt settings).map components := by
  obtain ⟨hdir, -, hallow⟩ := Key.mk.inj hkey
  have hor : ∀ a b : Option String,
      (a.or b).map components = (a.map components).or (b.map components) := by
    rintro (_ | a) b <;> rfl
  have hjoined : (r.joined settings.allowlistPath).map components =
      (s.joined settings.allowlistPath).map components := by
    unfold joined
    cases settings.allowlistPath with
    | none => rfl
    | some path => exact congrArg some (components_join_congr hdir rfl)
  rw [allowlistAt, allowlistAt, hor, hor, hallow, hjoined]

/-- Requests with one key load the same where components settle what is looked up. -/
theorem load_congr (hkey : r.key = s.key)
    (hsees : tree.SeesComponents fun p => r.Asks tree p ∨ s.Asks tree p) {config : Config}
    (h : r.load tree = .ok config) :
    ∃ config', s.load tree = .ok config' ∧ config.Same config' := by
  obtain ⟨settings, allowlist, merged, hsettings, hallow, hmerge, rfl⟩ := load_eq_ok.mp h
  have hplace := allowlistAt_congr hkey settings
  obtain ⟨-, hconfig, -⟩ := Key.mk.inj hkey
  have hsettings' : s.settings tree = .ok settings :=
    elim_congr hconfig (fun p p' hp hp' heq => Settings.load_congr
      (hsees p p' (.inl (.inl hp)) (.inr (.inl hp')) heq)) hsettings
  have hallow' : s.allowlist tree settings = .ok allowlist := by
    refine elim_congr hplace (fun p p' hp hp' heq => Allowlist.load_congr ?_) hallow
    refine hsees p p' (.inl (.inr ?_)) (.inr (.inr ?_)) heq
    · rw [hsettings]
      exact hp
    · rw [hsettings']
      exact hp'
  exact ⟨_, load_eq_ok.mpr ⟨settings, allowlist, merged, hsettings', hallow', hmerge, rfl⟩,
    hconfig, hplace, rfl⟩

end Request

namespace Resolver

/-- What holds of a resolver after some calls. -/
structure Caches (calls : List Call) : Prop where
  /-- A key holds the instance that the first successful call with it returned. -/
  held : ∀ key found, (after calls).get? key = some found ↔ ∃ front c back,
    calls = front ++ c :: back ∧ c.key = key ∧ ¬Succeeded front key ∧ answer front c = .ok found
  /-- Numbers tell instances apart. -/
  distinct : ∀ key key' found found', (after calls).get? key = some found →
    (after calls).get? key' = some found' → found.number = found'.number → key = key'
  /-- A call with a key that has succeeded returns the instance that was returned before. -/
  again : ∀ front c mid found, calls = front ++ c :: mid → answer front c = .ok found →
    ∀ d : Call, d.key = c.key → answer calls d = .ok found
  /-- A call with any other key loads and merges the files as they are now. -/
  read : ∀ c : Call, ¬Succeeded calls c.key → (answer calls c).map (·.config) = c.load
  /-- A call that fails changes nothing. -/
  failed : ∀ c e, answer calls c = .error e → after (calls ++ [c]) = after calls
  /-- There are as many entries as keys that have succeeded. -/
  count : ∃ keys : List Key, keys.Nodup ∧ (∀ key, key ∈ keys ↔ Succeeded calls key) ∧
    (after calls).size = keys.length

/-- Both fail in the same way, or both return configurations that are the same but for the spelling
of paths. -/
inductive SameAnswer : Except Error Resolved → Except Error Resolved → Prop where
  | ok {a b : Resolved} (h : a.config.Same b.config) : SameAnswer (.ok a) (.ok b)
  | error (e : Error) : SameAnswer (.error e) (.error e)

theorem caches (calls : List Call) : Caches calls where
  held := get?_after_eq_some calls
  distinct key key' found found' h h' hnumber := by
    have hget := getElem?_of_get? h
    have hget' := getElem?_of_get? h'
    rw [hnumber, hget'] at hget
    exact (Prod.mk.inj (Option.some.inj hget)).1.symm
  again front c mid found hcut h d hkey := by
    rw [hcut]
    exact answer_again h hkey
  read c h := answer_of_not_succeeded h
  failed c e h := after_of_error h
  count := by
    refine ⟨(after calls).keys, nodup_keys_after calls, fun key => ?_, ?_⟩
    · rw [mem_keys, isSome_get?_after]
    · simp [keys, size]

theorem sameAnswer_of_map_eq {a b : Except Error Resolved}
    (h : a.map (·.config) = b.map (·.config)) : SameAnswer a b := by
  cases a with
  | error e =>
    cases b with
    | error e' =>
      obtain rfl : e = e' := Except.error.inj h
      exact .error e
    | ok y => cases h
  | ok x =>
    cases b with
    | error e' => cases h
    | ok y =>
      have hconfig : x.config = y.config := Except.ok.inj h
      refine .ok ?_
      rw [hconfig]
      exact ⟨rfl, rfl, rfl⟩

theorem not_succeeded_nil (key : Key) : ¬Succeeded [] key := by
  rintro ⟨front, c, back, hcut, -⟩
  simp at hcut

/-- In files that do not change, what is held for a key was loaded for an earlier request. -/
theorem exists_load_of_get? {requests : List Request} {key : Key} {found : Resolved}
    (h : (after (requests.map (⟨tree, ·⟩))).get? key = some found) :
    ∃ r ∈ requests, r.key = key ∧ r.load tree = .ok found.config := by
  obtain ⟨front, c, back, hcut, hkey, hfirst, hanswer⟩ := (get?_after_eq_some _ _ _).mp h
  obtain ⟨r, hr, rfl⟩ : ∃ r ∈ requests, ⟨tree, r⟩ = c := by
    refine List.mem_map.mp ?_
    rw [hcut]
    simp
  have hread : (answer front ⟨tree, r⟩).map (·.config) = r.load tree :=
    answer_of_not_succeeded (by rwa [hkey])
  rw [hanswer] at hread
  exact ⟨r, hr, hkey, hread.symm⟩

/-- In files that do not change a resolver answers like a new one. -/
theorem sameAnswer_new {requests : List Request} {request : Request}
    (hsees : tree.SeesComponents fun p => ∃ r ∈ request :: requests, r.Asks tree p) :
    SameAnswer (answer (requests.map (⟨tree, ·⟩)) ⟨tree, request⟩) (answer [] ⟨tree, request⟩) := by
  have hnew : (answer [] ⟨tree, request⟩).map (·.config) = request.load tree :=
    answer_of_not_succeeded (not_succeeded_nil _)
  cases hheld : (after (requests.map (⟨tree, ·⟩))).get? request.key with
  | none =>
    refine sameAnswer_of_map_eq ?_
    rw [hnew]
    exact answer_of_not_succeeded (get?_after_eq_none.mp hheld)
  | some found =>
    obtain ⟨r, hr, hkey, hload⟩ := exists_load_of_get? hheld
    have hboth : tree.SeesComponents fun p => r.Asks tree p ∨ request.Asks tree p := by
      intro p q hp hq
      refine hsees p q ?_ ?_
      · exact hp.elim (⟨r, List.mem_cons_of_mem _ hr, ·⟩) (⟨request, List.mem_cons_self, ·⟩)
      · exact hq.elim (⟨r, List.mem_cons_of_mem _ hr, ·⟩) (⟨request, List.mem_cons_self, ·⟩)
    obtain ⟨config, hconfig, hsame⟩ := Request.load_congr hkey hboth hload
    rw [answer_of_get? (c := ⟨tree, request⟩) hheld]
    rw [hconfig] at hnew
    cases hanswer : answer [] ⟨tree, request⟩ with
    | error e =>
      rw [hanswer] at hnew
      cases hnew
    | ok x =>
      rw [hanswer] at hnew
      rw [← Except.ok.inj hnew] at hsame
      exact .ok hsame

/-- After any calls, with any files at each of them, the resolver holds the first success of each
key and nothing else, returns it from then on, and reads the files as they are for all other keys.
In files that do not change, and that see nothing of paths but components, a call answers as it
would answer on a new resolver. -/
theorem caches_first_success :
    (∀ calls, Caches calls) ∧
    ∀ tree requests request,
      tree.SeesComponents (fun p => ∃ r ∈ request :: requests, r.Asks tree p) →
        SameAnswer (answer (requests.map (⟨tree, ·⟩)) ⟨tree, request⟩)
          (answer [] ⟨tree, request⟩) :=
  ⟨caches, fun _ _ _ => sameAnswer_new⟩

/-- Settings that name an allowlist. -/
def settingsWithAllowlist : FileTree := .directory
  [("allow.json", .file (.text "\x7b\x7d")),
   ("lint.json", .file (.text "\x7b\"allowlistPath\": \"allow.json\"\x7d"))]

def plainRequest : Request := { workDir := "/", configPath := some "lint.json" }

/-- The request for the same settings in another spelling. -/
def dottedRequest : Request := { workDir := "/", configPath := some "./lint.json" }

theorem settingsWithAllowlist_seesComponents : settingsWithAllowlist.SeesComponents
    fun p => ∃ r ∈ [dottedRequest, plainRequest], r.Asks settingsWithAllowlist p := by
  have hasked : ∀ r ∈ [dottedRequest, plainRequest],
      (∀ p ∈ r.joined r.configPath, FileTree.EndsInName p) ∧
      ∀ p ∈ (r.settings settingsWithAllowlist).toOption.bind r.allowlistAt,
        FileTree.EndsInName p := by decide +kernel
  have hends : ∀ p, (∃ r ∈ [dottedRequest, plainRequest], r.Asks settingsWithAllowlist p) →
      FileTree.EndsInName p := by
    rintro p ⟨r, hr, h⟩
    exact h.elim ((hasked r hr).1 p) ((hasked r hr).2 p)
  exact fun p q hp hq h => FileTree.find_congr h (hends p hp) (hends q hq)

theorem settingsWithAllowlist_sameAnswer :
    settingsWithAllowlist.SeesComponents
      (fun p => ∃ r ∈ [dottedRequest, plainRequest], r.Asks settingsWithAllowlist p) ∧
    (answer [] ⟨settingsWithAllowlist, dottedRequest⟩).isOk ∧
    SameAnswer
      (answer ([plainRequest].map (⟨settingsWithAllowlist, ·⟩))
        ⟨settingsWithAllowlist, dottedRequest⟩)
      (answer [] ⟨settingsWithAllowlist, dottedRequest⟩) := by
  refine ⟨settingsWithAllowlist_seesComponents, ?_, ?_⟩
  · decide +kernel
  · exact caches_first_success.2 settingsWithAllowlist [plainRequest] dottedRequest
      settingsWithAllowlist_seesComponents

end Resolver
end Config
end TokenLint
