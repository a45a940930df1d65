import Mathlib.Data.List.Perm.Subperm
import Mathlib.Data.List.Sort
import TokenLint.Proofs.FileTree.Walk

/-!
# What is collected

The targets below a root are its files whose paths match an included pattern and no excluded one,
and that no ignored directory below the root holds. They are collected in the strict order of their
paths, so that more patterns lead to more or fewer of them and never to another order.
-/
namespace TokenLint.Targets

open FileTree

/-! ### Patterns -/

/-- Whether a pattern is a glob that accepts a path. -/
def Matches (pattern path : String) : Prop :=
  ∃ g, Glob.compile pattern false = .ok g ∧ g.accepts path

/-- The globs of some patterns are those that a pattern among them stands for. -/
theorem mem_of_compileAll {patterns : List String} {globs : List Glob}
    (h : compileAll patterns = .ok globs) (g : Glob) :
    g ∈ globs ↔ ∃ p ∈ patterns, Glob.compile p false = .ok g := by
  induction patterns generalizing globs with
  | nil =>
    obtain rfl := Except.ok.inj h
    simp
  | cons p ps ih =>
    rw [compileAll] at h
    split at h
    · cases h
    · rename_i first hfirst
      cases hrest : compileAll ps with
      | error e =>
        rw [hrest] at h
        cases h
      | ok rest =>
        rw [hrest] at h
        obtain rfl := Except.ok.inj h
        rw [List.mem_cons, ih hrest, List.exists_mem_cons_iff, hfirst, Except.ok.injEq, eq_comm]

variable {t t' : Targets} {included excluded included' excluded' : List String}

theorem mem_of_ofPatterns (h : ofPatterns included excluded = .ok t) (g : Glob) :
    (g ∈ t.included ↔ ∃ p ∈ defaultIncluded ++ included, Glob.compile p false = .ok g) ∧
      (g ∈ t.excluded ↔ ∃ p ∈ defaultExcluded ++ excluded, Glob.compile p false = .ok g) := by
  unfold ofPatterns at h
  split at h
  · cases h
  · rename_i gs hincluded
    cases hexcluded : compileAll (defaultExcluded ++ excluded) with
    | error e =>
      rw [hexcluded] at h
      cases h
    | ok hs =>
      rw [hexcluded] at h
      obtain rfl := Except.ok.inj h
      exact ⟨mem_of_compileAll hincluded g, mem_of_compileAll hexcluded g⟩

theorem contains_iff (h : ofPatterns included excluded = .ok t) {path : String} :
    t.contains path ↔ (∃ p ∈ defaultIncluded ++ included, Matches p path) ∧
      ∀ p ∈ defaultExcluded ++ excluded, ¬Matches p path := by
  have hany : ∀ {globs : List Glob} {patterns : List String},
      (∀ g, g ∈ globs ↔ ∃ p ∈ patterns, Glob.compile p false = .ok g) →
      (globs.any (·.accepts path) ↔ ∃ p ∈ patterns, Matches p path) := by
    intro globs patterns hglobs
    rw [List.any_eq_true]
    constructor
    · rintro ⟨g, hg, haccepts⟩
      obtain ⟨p, hp, hcompile⟩ := (hglobs g).mp hg
      exact ⟨p, hp, g, hcompile, haccepts⟩
    · rintro ⟨p, hp, g, hcompile, haccepts⟩
      exact ⟨g, (hglobs g).mpr ⟨p, hp, hcompile⟩, haccepts⟩
  rw [contains, Bool.and_eq_true, Bool.not_eq_true', Bool.eq_false_iff,
    hany fun g => (mem_of_ofPatterns h g).1, ne_eq, hany fun g => (mem_of_ofPatterns h g).2]
  simp only [not_exists, not_and]

/-! ### The walk -/

/-- No directory on the way to a file is an ignored one. What the file is called, and where the
walk begins, does not matter. -/
theorem enters_iff {trail names : List String} :
    Enters enters trail names ↔ ∀ n ∈ names.dropLast, n ∉ ignoredDirectories := by
  induction names generalizing trail with
  | nil => simp [Enters]
  | cons n ns ih =>
    rw [Enters, ih]
    cases ns with
    | nil => simp [enters]
    | cons m ns => simp [enters, List.dropLast_cons_of_ne_nil]

/-- A file to collect, by the names that lead to it from a root within a tree. -/
structure IsTarget (included excluded : List String) (whole : FileTree) (root names : List String) :
    Prop where
  file : ∃ content, whole.fileAt? (root ++ names) = some content
  entered : ∀ n ∈ names.dropLast, n ∉ ignoredDirectories
  included : ∃ p ∈ defaultIncluded ++ included, Matches p (slashPath names)
  spared : ∀ p ∈ defaultExcluded ++ excluded, ¬Matches p (slashPath names)

section Collect

variable {whole tree : FileTree} {root : List String}

theorem withoutRepeats_eq_self {paths : List (List String)} (h : paths.Nodup) :
    withoutRepeats paths = paths := by
  fun_induction withoutRepeats paths with
  | case1 a b rest heq _ =>
    obtain rfl : a = b := by simpa using heq
    simp at h
  | case2 a b rest _ ih => rw [ih (List.nodup_cons.mp h).2]
  | case3 => rfl

theorem mem_collect (hw : tree.WellFormed) {names : List String} : names ∈ t.collect tree ↔
    (∃ c, tree.fileAt? names = some c) ∧ (∀ n ∈ names.dropLast, n ∉ ignoredDirectories) ∧
      t.contains (slashPath names) := by
  have hnodup : (((tree.walk enters []).filter fun names =>
      t.contains (slashPath names)).mergeSort inOrder).Nodup :=
    (List.mergeSort_perm _ inOrder).nodup_iff.mpr ((nodup_walk hw []).filter _)
  rw [collect, withoutRepeats_eq_self hnodup, (List.mergeSort_perm _ inOrder).mem_iff,
    List.mem_filter, mem_walk_iff hw]
  constructor
  · rintro ⟨⟨names, rfl, hfile, henters⟩, hcontains⟩
    exact ⟨hfile, enters_iff.mp henters, hcontains⟩
  · rintro ⟨hfile, hentered, hcontains⟩
    exact ⟨⟨names, rfl, hfile, enters_iff.mpr hentered⟩, hcontains⟩

theorem isName_of_mem_collect (hw : tree.WellFormed) (hn : tree.Named) {names : List String}
    (h : names ∈ t.collect tree) : ∀ n ∈ names, IsName n := by
  obtain ⟨⟨c, hfile⟩, -⟩ := (mem_collect hw).mp h
  exact hn.of_fileAt? hfile

/-- The paths are in strict order: what is before is not after, and no two files share a path. -/
theorem collect_ordered (hw : tree.WellFormed) (hn : tree.Named) :
    ((t.collect tree).map slashPath).Pairwise (· < ·) := by
  have horder : (t.collect tree).Pairwise (inOrder · ·) := by
    refine List.Pairwise.sublist (withoutRepeats_sublist _) (List.pairwise_mergeSort ?_ ?_ _)
    · intro a b c hab hbc
      simp only [inOrder, decide_eq_true_eq] at *
      exact String.le_trans hab hbc
    · intro a b
      simp only [inOrder, Bool.or_eq_true, decide_eq_true_eq]
      exact String.le_total _ _
  rw [List.pairwise_map]
  refine (horder.and (nodup_collect t hw)).imp_of_mem fun {a b} ha hb hab => ?_
  have hle : slashPath a ≤ slashPath b := by simpa [inOrder] using hab.1
  refine Decidable.byContradiction fun hnot => hab.2 ?_
  have hsame := String.le_antisymm hle (String.not_lt.mp hnot)
  exact slashPath_inj (isName_of_mem_collect hw hn ha) (isName_of_mem_collect hw hn hb) hsame

/-- Lists in strict order are one within the other if their members are. -/
theorem sublist_of_ordered {as bs : List String} (has : as.Pairwise (· < ·))
    (hbs : bs.Pairwise (· < ·)) (h : as ⊆ bs) : as.Sublist bs := by
  have hasymm : Std.Antisymm fun a b : String => a < b :=
    ⟨fun _ _ hab hba => absurd (String.lt_trans hab hba) (String.lt_irrefl _)⟩
  have hnodup : as.Nodup := has.imp fun {a b} hab => by
    rintro rfl
    exact String.lt_irrefl a hab
  exact List.sublist_of_subperm_of_pairwise (hnodup.subperm h) has hbs

theorem collect_sublist (hw : tree.WellFormed) (hn : tree.Named)
    (h : ∀ path, t.contains path → t'.contains path) :
    ((t.collect tree).map slashPath).Sublist ((t'.collect tree).map slashPath) := by
  refine sublist_of_ordered (collect_ordered hw hn) (collect_ordered hw hn)
    (List.map_subset _ fun names hmem => ?_)
  obtain ⟨hfile, hentered, hcontains⟩ := (mem_collect hw).mp hmem
  exact (mem_collect hw).mpr ⟨hfile, hentered, h _ hcontains⟩

/-- Which paths are collected below a root with some tree. -/
structure Collects (included excluded : List String) (whole : FileTree) (root : List String)
    (tree : FileTree) (paths : List String) : Prop where
  ordered : paths.Pairwise (· < ·)
  mem_iff : ∀ path, path ∈ paths ↔
    ∃ names, slashPath names = path ∧ IsTarget included excluded whole root names
  /-- More included patterns only add files. -/
  added : ∀ included' t', included ⊆ included' → ofPatterns included' excluded = .ok t' →
    paths.Sublist ((t'.collect tree).map slashPath)
  /-- More excluded patterns only leave files out. -/
  leftOut : ∀ excluded' t', excluded ⊆ excluded' → ofPatterns included excluded' = .ok t' →
    ((t'.collect tree).map slashPath).Sublist paths

/-- Below any root the files collected are the targets there, in the strict order of their paths.
More included patterns only add files, more excluded ones only leave files out. -/
theorem collect_exact (ht : ofPatterns included excluded = .ok t) (hw : whole.WellFormed)
    (hn : whole.Named) (hroot : whole.get? root = some tree) :
    Collects included excluded whole root tree ((t.collect tree).map slashPath) := by
  have hwt := hw.get? hroot
  have hnt := (hn.get? hroot).2
  have hfile : ∀ names, whole.fileAt? (root ++ names) = tree.fileAt? names := by
    intro names
    rw [fileAt?, fileAt?, get?_append, hroot, Option.bind_some]
  constructor
  case ordered => exact collect_ordered hwt hnt
  case mem_iff =>
    intro path
    rw [List.mem_map]
    refine exists_congr fun names => ?_
    rw [mem_collect hwt, contains_iff ht, and_comm]
    refine and_congr_right fun _ => ?_
    constructor
    · rintro ⟨hat, hentered, hincluded, hspared⟩
      exact ⟨by rwa [hfile], hentered, hincluded, hspared⟩
    · intro h
      exact ⟨by simpa only [hfile] using h.file, h.entered, h.included, h.spared⟩
  case added =>
    intro included' t' hmore ht'
    refine collect_sublist hwt hnt fun path hpath => ?_
    obtain ⟨⟨p, hp, hmatch⟩, hspared⟩ := (contains_iff ht).mp hpath
    have hp' := List.mem_append.mpr ((List.mem_append.mp hp).imp_right fun h => hmore h)
    exact (contains_iff ht').mpr ⟨⟨p, hp', hmatch⟩, hspared⟩
  case leftOut =>
    intro excluded' t' hmore ht'
    refine collect_sublist hwt hnt fun path hpath => ?_
    obtain ⟨hincluded, hspared⟩ := (contains_iff ht').mp hpath
    refine (contains_iff ht).mpr ⟨hincluded, fun p hp => hspared p ?_⟩
    exact List.mem_append.mpr ((List.mem_append.mp hp).imp_right fun h => hmore h)

/-- A site below a directory with an ignored name. It holds a file with such a name, and a file in
a directory with one. -/
def site : FileTree :=
  .directory [("dist", .directory [("app", .directory
    [("a.tsx", .file (.text "")), ("b.tsx", .file (.text "")),
      ("build", .directory [("c.tsx", .file (.text ""))]), ("dist", .file (.text ""))])])]

theorem site_collected : ∃ t tree, ofPatterns ["app/*"] ["*/b.tsx"] = .ok t ∧
    site.WellFormed ∧ site.Named ∧ site.get? ["dist"] = some tree ∧
    (t.collect tree).map slashPath = ["app/a.tsx", "app/dist"] ∧
    Collects ["app/*"] ["*/b.tsx"] site ["dist"] tree ["app/a.tsx", "app/dist"] := by
  have hw : site.WellFormed := by decide
  have hn : site.Named := by decide
  obtain ⟨t, ht⟩ : ∃ t, ofPatterns ["app/*"] ["*/b.tsx"] = .ok t := ⟨_, rfl⟩
  obtain ⟨tree, htree⟩ : ∃ tree, site.get? ["dist"] = some tree := ⟨_, rfl⟩
  have hwalked : (tree.walk enters []).filter (fun names => t.contains (slashPath names)) =
      [["app", "a.tsx"], ["app", "dist"]] := by
    have hall : (ofPatterns ["app/*"] ["*/b.tsx"]).toOption.bind (fun t =>
        (site.get? ["dist"]).map fun tree =>
          (tree.walk enters []).filter fun names => t.contains (slashPath names)) =
        some [["app", "a.tsx"], ["app", "dist"]] := by decide +kernel
    rw [ht, htree] at hall
    exact Option.some.inj hall
  have hpaths : (t.collect tree).map slashPath = ["app/a.tsx", "app/dist"] := by
    rw [collect, hwalked, List.mergeSort_of_pairwise (by decide)]
    rfl
  exact ⟨t, tree, ht, hw, hn, htree, hpaths, hpaths ▸ collect_exact ht hw hn htree⟩

end Collect
end TokenLint.Targets
