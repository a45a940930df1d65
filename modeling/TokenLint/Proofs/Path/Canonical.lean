import TokenLint.Proofs.Path.Names
import TokenLint.Rule

/-!
# One spelling for a path

A path that is compared or reported is the names of some of its segments, with slashes between them.
Joined names are read back as they were, so the spelling is its own. Which names are left out is
told by the components of the directories alone, so it does not matter how the file was named.
-/
namespace TokenLint.Path

open Text

variable {path : String} {names : List String}

/-! ### Names in a path -/

/-- The names among the segments of a path. -/
def namesOf (path : String) : List String :=
  ((splitOn '/' path.toList).map String.ofList).filter (IsName ·)

/-- A path without a slash in front, and with a name in each segment. -/
structure Canonical (path : String) : Prop where
  relative : isAbsolute path = false
  named : path ≠ "" → ∀ segment ∈ splitOn '/' path.toList, IsName (String.ofList segment)

theorem isName_of_mem_namesOf {name : String} (h : name ∈ namesOf path) : IsName name := by
  simpa using (List.mem_filter.mp h).2

theorem isName_ofList {segment : List Char} (hnil : segment ≠ []) (hslash : '/' ∉ segment)
    (hdot : segment ≠ ['.']) (hdots : segment ≠ ['.', '.']) : IsName (String.ofList segment) := by
  have hne : ∀ s : String, segment ≠ s.toList → String.ofList segment ≠ s :=
    fun s hs h => hs (by rw [← h, String.toList_ofList])
  exact ⟨hne "" hnil, by rwa [String.toList_ofList], hne "." hdot, hne ".." hdots⟩

/-- Of a segment the component is its name, or no name is left of it. -/
theorem name?_of_segment {segment : List Char} (h : '/' ∉ segment) :
    (if !segment.isEmpty then (component? segment).bind Component.name? else none) =
      Option.guard (IsName ·) (String.ofList segment) := by
  unfold component? Option.guard
  by_cases hnil : segment = []
  · simp [hnil, IsName]
  · by_cases hdot : segment = ['.']
    · simp [hdot, IsName]
    · by_cases hdots : segment = ['.', '.']
      · simp [hdots, IsName, Component.name?]
      · have hname : IsName (String.ofList segment) := isName_ofList hnil h hdot hdots
        simp [hname, hnil, hdot, hdots, Component.name?]

theorem filterMap_name?_steps (path : String) :
    (steps path.toList).filterMap Component.name? = namesOf path := by
  rw [steps, segments, List.filterMap_filterMap, List.filterMap_filter, namesOf,
    ← List.filterMap_eq_filter, List.filterMap_map]
  exact List.filterMap_congr fun segment hmem => name?_of_segment (not_mem_of_mem_splitOn hmem)

/-- In front of the segments there is no name. -/
theorem filterMap_name?_components (path : String) :
    (components path).filterMap Component.name? = namesOf path := by
  have hfront : (front path.toList).filterMap Component.name? = [] := by
    rcases front_cases path.toList with ⟨h, -⟩ | ⟨h, -⟩ | ⟨h, -⟩ <;> rw [h] <;> rfl
  rw [components, componentsOf_eq, List.filterMap_append, hfront, filterMap_name?_steps,
    List.nil_append]

theorem toSlash_eq (path : String) : toSlash path = slashPath (namesOf path) := by
  rw [toSlash, slashed, filterMap_name?_components, slashPath]

/-! ### A path of names -/

theorem namesOf_slashPath (h : ∀ n ∈ names, IsName n) : namesOf (slashPath names) = names := by
  have hname : Component.name? ∘ Component.normal = some := rfl
  rw [← filterMap_name?_steps, steps_slashPath h, List.filterMap_map, hname, List.filterMap_some]

theorem toSlash_slashPath (h : ∀ n ∈ names, IsName n) :
    toSlash (slashPath names) = slashPath names := by
  rw [toSlash_eq, namesOf_slashPath h]

theorem canonical_slashPath (h : ∀ n ∈ names, IsName n) : Canonical (slashPath names) := by
  refine ⟨isAbsolute_slashPath h, fun hpath segment hsegment => ?_⟩
  have hne : names ≠ [] := by
    rintro rfl
    exact hpath rfl
  rw [splitOn_slashPath hne h] at hsegment
  obtain ⟨name, hname, rfl⟩ := List.mem_map.mp hsegment
  rw [String.ofList_toList]
  exact h name hname

/-! ### Directories -/

theorem stripPrefix?_eq_some_iff {base cs rest : List Component} :
    stripPrefix? base cs = some rest ↔ cs = base ++ rest := by
  induction base generalizing cs with
  | nil => simp [stripPrefix?]
  | cons b base ih =>
    cases cs with
    | nil => simp [stripPrefix?]
    | cons c cs =>
      by_cases hbc : b = c
      · simp [stripPrefix?, hbc, ih]
      · simp [stripPrefix?, hbc, Ne.symm hbc]

theorem stripPrefix?_eq_none_iff {base cs : List Component} :
    stripPrefix? base cs = none ↔ ¬base <+: cs := by
  rw [Option.eq_none_iff_forall_ne_some]
  constructor
  · rintro h ⟨rest, hrest⟩
    exact h rest (stripPrefix?_eq_some_iff.mpr hrest.symm)
  · intro h rest hrest
    exact h ⟨rest, (stripPrefix?_eq_some_iff.mp hrest).symm⟩

/-- In a directory a path loses the names of the directory. -/
theorem relativeTo_within {base : String} {bases : List String}
    (h : components base <+: components path) :
    relativeTo (base :: bases) path = slashPath ((namesOf path).drop (namesOf base).length) := by
  obtain ⟨rest, hrest⟩ := h
  have hnames : namesOf path = namesOf base ++ rest.filterMap Component.name? := by
    rw [← filterMap_name?_components, ← hrest, List.filterMap_append, filterMap_name?_components]
  rw [relativeTo, stripPrefix?_eq_some_iff.mpr hrest.symm, hnames, List.drop_left]
  rfl

theorem relativeTo_outside {base : String} (bases : List String)
    (h : ¬components base <+: components path) :
    relativeTo (base :: bases) path = relativeTo bases path := by
  rw [relativeTo, stripPrefix?_eq_none_iff.mpr h]

/-- Wherever a path is seen from, its last names are left. -/
theorem exists_relativeTo (bases : List String) (path : String) :
    ∃ k, relativeTo bases path = slashPath ((namesOf path).drop k) := by
  induction bases with
  | nil => exact ⟨0, toSlash_eq path⟩
  | cons base bases ih =>
    by_cases h : components base <+: components path
    · exact ⟨_, relativeTo_within h⟩
    · rwa [relativeTo_outside bases h]

/-! ### The spelling -/

section
variable (processDir? : Option String) (runDir : String)

theorem normalizeWith_of_relative (h : isAbsolute path = false) :
    normalizeWith processDir? runDir path = toSlash path := by
  rw [normalizeWith, h, if_neg Bool.false_ne_true]
  split
  · rename_i hempty
    obtain rfl : path = "" := by simpa using hempty
    rfl
  · rfl

theorem normalizeWith_of_absolute (h : isAbsolute path) :
    normalizeWith processDir? runDir path = relativeTo (processDir?.toList ++ [runDir]) path := by
  have hne : ¬path.isEmpty = true := by
    intro hempty
    obtain rfl : path = "" := by simpa using hempty
    cases h
  rw [normalizeWith, if_neg hne, if_pos h]

/-- The last names of a path are its spelling. -/
theorem exists_normalizeWith (path : String) :
    ∃ k, normalizeWith processDir? runDir path = slashPath ((namesOf path).drop k) := by
  cases h : isAbsolute path with
  | false => exact ⟨0, (normalizeWith_of_relative _ _ h).trans (toSlash_eq path)⟩
  | true =>
    rw [normalizeWith_of_absolute _ _ h]
    exact exists_relativeTo _ path

end

/-- In the directory that the program runs in, a file is spelled as its path from there. -/
theorem normalizeWith_behind {base file : String} (hbase : isAbsolute base)
    (hfile : components file = components base ++ steps path.toList) (runDir : String) :
    normalizeWith (some base) runDir file = toSlash path := by
  have hroot : (components base).head? = some .root :=
    (head?_componentsOf _).mpr (beq_iff_eq.mp hbase)
  have habsolute : isAbsolute file := by
    refine beq_iff_eq.mpr ((head?_componentsOf _).mp ?_)
    change (components file).head? = _
    rw [hfile, List.head?_append, hroot, Option.some_or]
  have hslashed : slashed (steps path.toList) = toSlash path := by
    rw [slashed, filterMap_name?_steps, toSlash_eq, slashPath]
  rw [normalizeWith_of_absolute _ _ habsolute, Option.toList_some, List.singleton_append,
    relativeTo, stripPrefix?_eq_some_iff.mpr hfile]
  exact hslashed

/-- How a path is spelled, in a run whose directories are given. -/
structure Spelled (processDir? : Option String) (runDir path spelling : String) : Prop where
  canonical : Canonical spelling
  fixed : toSlash spelling = spelling
  /-- With the directory that the program runs in before it, a relative path is spelled as it is
  without, so the two are exempt alike. -/
  relative : isAbsolute path = false → ∀ base file, isAbsolute base →
    file = join base path ∨ file = base ++ "/" ++ path → ∀ otherDir,
      normalizeWith (some base) otherDir file = spelling ∧ ∀ config : Config,
        config.isFileExempt (FileContext.ofPath base otherDir file).relativePath =
          config.isFileExempt spelling
  /-- Outside the directory that the program runs in, a path is spelled from that of the run. -/
  within : isAbsolute path → (∀ dir ∈ processDir?, ¬components dir <+: components path) →
    components runDir <+: components path →
      spelling = slashPath ((namesOf path).drop (namesOf runDir).length)
  /-- Outside both it keeps all of its names. -/
  outside : isAbsolute path → (∀ dir ∈ processDir?, ¬components dir <+: components path) →
    ¬components runDir <+: components path → spelling = slashPath (namesOf path)

/-- Outside the directory that the program runs in only that of the run is looked at. -/
theorem normalizeWith_outside {processDir? : Option String} {path : String}
    (habsolute : isAbsolute path)
    (houtside : ∀ dir ∈ processDir?, ¬components dir <+: components path) (runDir : String) :
    normalizeWith processDir? runDir path = relativeTo [runDir] path := by
  rw [normalizeWith_of_absolute _ _ habsolute]
  cases processDir? with
  | none => rfl
  | some dir => exact relativeTo_outside [runDir] (houtside dir rfl)

/-- The spelling of a path is canonical, and its own spelling. A relative path is spelled as it is
with the directory that the program runs in before it. An absolute path outside that directory is
spelled from the directory of the run if it is in there, and else with all of its names. -/
theorem normalizeWith_canonical (processDir? : Option String) (runDir path : String) :
    Spelled processDir? runDir path (normalizeWith processDir? runDir path) := by
  obtain ⟨k, hk⟩ := exists_normalizeWith processDir? runDir path
  have hnames : ∀ name ∈ (namesOf path).drop k, IsName name :=
    fun name hname => isName_of_mem_namesOf (List.mem_of_mem_drop hname)
  constructor
  case canonical =>
    rw [hk]
    exact canonical_slashPath hnames
  case fixed =>
    rw [hk]
    exact toSlash_slashPath hnames
  case relative =>
    intro hrelative base file hbase hfile otherDir
    have hne : base ≠ "" := by
      rintro rfl
      cases hbase
    have hcomponents : components file = components base ++ steps path.toList := by
      rcases hfile with rfl | rfl
      · exact components_join hne hrelative
      · exact components_slash hne path
    have hsame : normalizeWith (some base) otherDir file =
        normalizeWith processDir? runDir path := by
      rw [normalizeWith_behind hbase hcomponents, normalizeWith_of_relative _ _ hrelative]
    exact ⟨hsame, fun config => by rw [FileContext.ofPath, normalize, hsame]⟩
  case within =>
    intro habsolute houtside hwithin
    rw [normalizeWith_outside habsolute houtside]
    exact relativeTo_within hwithin
  case outside =>
    intro habsolute houtside hnot
    rw [normalizeWith_outside habsolute houtside, relativeTo_outside [] hnot, relativeTo,
      toSlash_eq]

/-- A path that is spelled alike in two ways, and one that lies in the directory of the run only. -/
theorem spelled_from_directories :
    isAbsolute "../lib//./x.ts" = false ∧ isAbsolute "/repo" ∧
      normalizeWith (some "/repo") "/run" "/repo/../lib//./x.ts" =
        normalizeWith none "/run" "../lib//./x.ts" ∧
      isAbsolute "/repo/app/./card.tsx" ∧ ¬components "/re" <+: components "/repo/app/./card.tsx" ∧
      components "/repo/app" <+: components "/repo/app/./card.tsx" ∧
      normalizeWith (some "/re") "/repo/app" "/repo/app/./card.tsx" = "card.tsx" := by
  have houtside : ¬components "/re" <+: components "/repo/app/./card.tsx" := by decide
  have hwithin : components "/repo/app" <+: components "/repo/app/./card.tsx" := by decide
  have hlast : slashPath ((namesOf "/repo/app/./card.tsx").drop (namesOf "/repo/app").length) =
      "card.tsx" := by decide
  have houtsideAll : ∀ dir ∈ some "/re", ¬components dir <+: components "/repo/app/./card.tsx" :=
    fun dir hdir => Option.some.inj hdir ▸ houtside
  have hsame := (normalizeWith_canonical none "/run" "../lib//./x.ts").relative (by decide) "/repo"
    "/repo/../lib//./x.ts" (by decide) (.inr (by decide)) "/run"
  have hspelled := (normalizeWith_canonical (some "/re") "/repo/app" "/repo/app/./card.tsx").within
    (by decide) houtsideAll hwithin
  exact ⟨by decide, by decide, hsame.1, by decide, houtside, hwithin, hspelled.trans hlast⟩

end TokenLint.Path
