import TokenLint.Analysis
import TokenLint.Proofs.FileTree.Walk
import TokenLint.Proofs.Report

/-!
# What a run reports

A run reads the files that it has found in the order of their paths, lets every rule look at each,
and sorts what they find. In which order the files were found does not matter, as no two of them
have the same components.
-/
namespace TokenLint.Analysis

open FileTree TokenLint.Path

/-! ### Files in order -/

/-- Paths of which no two lead along the same components. -/
def Distinct (paths : List String) : Prop := (paths.map components).Nodup

instance (paths : List String) : Decidable (Distinct paths) :=
  inferInstanceAs (Decidable (List.Nodup _))

/-- The files at some paths with their texts, in the order of the paths. -/
structure InOrder (tree : FileTree) (paths : List String) (files : List (String × String)) :
    Prop where
  perm : (files.map (·.1)).Perm paths
  ordered : (files.map (·.1)).Pairwise (Path.compare · · = .lt)
  read : ∀ f ∈ files, tree.read f.1 = .ok f.2

variable {tree : FileTree} {paths found : List String}

theorem inOrder_trans (p q r : String) : inOrder p q → inOrder q r → inOrder p r :=
  @Sorting.isLE_trans _ Path.compare _ p q r

theorem inOrder_total (p q : String) : inOrder p q || inOrder q p :=
  @Sorting.isLE_total _ Path.compare _ p q

theorem Distinct.perm (h : Distinct paths) (hperm : found.Perm paths) : Distinct found :=
  (hperm.map components).nodup_iff.mpr h

/-- There is one order of paths with different components. -/
theorem mergeSort_inOrder_congr (h : Distinct paths) (hperm : found.Perm paths) :
    found.mergeSort inOrder = paths.mergeSort inOrder := by
  refine (Sorting.mergeSort_congr inOrder_trans inOrder_total hperm.symm fun p hp q hq hpq hqp =>
    ?_).symm
  have heq : Path.compare p q = .eq := Std.OrientedCmp.isLE_antisymm hpq hqp
  exact List.inj_on_of_nodup_map h hp hq (compare_eq_iff.mp heq)

theorem mergeSort_inOrder_ordered (h : Distinct paths) :
    (paths.mergeSort inOrder).Pairwise (Path.compare · · = .lt) := by
  have hle := List.pairwise_mergeSort inOrder_trans inOrder_total paths
  have hdistinct := List.pairwise_map.mp (h.perm (List.mergeSort_perm paths inOrder))
  refine (hle.and hdistinct).imp fun {p q} ⟨hpq, hne⟩ => ?_
  exact (Ordering.isLE_iff_eq_lt_or_eq_eq.mp hpq).resolve_right fun heq =>
    hne (compare_eq_iff.mp heq)

theorem readAll_eq_ok_iff {files : List (String × String)} : readAll tree paths = .ok files ↔
    files.map (·.1) = paths ∧ ∀ f ∈ files, tree.read f.1 = .ok f.2 := by
  induction paths generalizing files with
  | nil =>
    rw [readAll, Except.ok.injEq, List.map_eq_nil_iff]
    exact ⟨fun h => ⟨h.symm, by simp [← h]⟩, fun h => h.1.symm⟩
  | cons path paths ih =>
    rw [readAll]
    constructor
    · intro h
      split at h
      · cases h
      · rename_i text htext
        cases hrest : readAll tree paths with
        | error e =>
          rw [hrest] at h
          cases h
        | ok rest =>
          rw [hrest] at h
          obtain rfl := Except.ok.inj h
          obtain ⟨hpaths, hread⟩ := ih.mp hrest
          exact ⟨by rw [List.map_cons, hpaths], List.forall_mem_cons.mpr ⟨htext, hread⟩⟩
    · rintro ⟨hpaths, hread⟩
      cases files with
      | nil => cases hpaths
      | cons f files =>
        obtain ⟨rfl, htail⟩ := List.cons.inj hpaths
        obtain ⟨hfirst, hread⟩ := List.forall_mem_cons.mp hread
        rw [hfirst, ih.mpr ⟨htail, hread⟩]
        rfl

theorem exists_readAll_iff :
    (∃ files, readAll tree paths = .ok files) ↔ ∀ p ∈ paths, ∃ text, tree.read p = .ok text := by
  constructor
  · rintro ⟨files, hfiles⟩ p hp
    obtain ⟨rfl, hread⟩ := readAll_eq_ok_iff.mp hfiles
    obtain ⟨f, hf, rfl⟩ := List.mem_map.mp hp
    exact ⟨f.2, hread f hf⟩
  · intro h
    choose! text htext using h
    refine ⟨paths.map fun p => (p, text p), readAll_eq_ok_iff.mpr ⟨?_, fun f hf => ?_⟩⟩
    · rw [List.map_map]
      exact List.map_id paths
    · obtain ⟨p, hp, rfl⟩ := List.mem_map.mp hf
      exact htext p hp

/-! ### The report -/

section ReportOn

variable (a : Analysis) (processDir : String) (config : Config)

/-- What the rules find in files: file by file, in each one rule by rule. -/
def produced (files : List (String × String)) : List Violation :=
  files.flatMap fun f => a.rules.flatMap fun rule =>
    rule.check (.ofPath processDir a.request.workDir f.1) (.parse f.2) config

/-- A report tells of each file at some paths. -/
def ReportsOn (tree : FileTree) (paths : List String) (r : Report) : Prop :=
  ∃ files, InOrder tree paths files ∧ r.filesChecked = paths.length ∧
    Report.Arranged (a.produced processDir config files) r.violations

theorem reportOnFiles_perm (h : Distinct paths) (hperm : found.Perm paths) :
    a.reportOnFiles tree processDir config found =
      a.reportOnFiles tree processDir config paths := by
  rw [reportOnFiles, mergeSort_inOrder_congr h hperm, reportOnFiles]

theorem reportOnFiles_eq_ok_iff {r : Report} :
    a.reportOnFiles tree processDir config paths = .ok r ↔
      ∃ files, readAll tree (paths.mergeSort inOrder) = .ok files ∧
        a.reportOn processDir config files = r := by
  rw [reportOnFiles]
  cases readAll tree (paths.mergeSort inOrder) with
  | error e => simp [Except.map]
  | ok files => simp [Except.map]

theorem reportsOn_of_reportOnFiles (h : Distinct paths) {r : Report}
    (hr : a.reportOnFiles tree processDir config paths = .ok r) :
    a.ReportsOn processDir config tree paths r := by
  obtain ⟨files, hfiles, rfl⟩ := (a.reportOnFiles_eq_ok_iff processDir config).mp hr
  obtain ⟨hpaths, hread⟩ := readAll_eq_ok_iff.mp hfiles
  have hperm : (files.map (·.1)).Perm paths := hpaths ▸ List.mergeSort_perm paths inOrder
  refine ⟨files, ⟨hperm, hpaths ▸ mergeSort_inOrder_ordered h, hread⟩, ?_, ?_⟩
  · rw [← hperm.length_eq, List.length_map]
    rfl
  · exact Report.arranged_sort ⟨a.produced processDir config files, files.length⟩

theorem exists_reportOnFiles_iff : (∃ r, a.reportOnFiles tree processDir config paths = .ok r) ↔
    ∀ p ∈ paths, ∃ text, tree.read p = .ok text := by
  have hmem : ∀ p, p ∈ paths.mergeSort inOrder ↔ p ∈ paths := fun _ =>
    (List.mergeSort_perm paths inOrder).mem_iff
  have hread := @exists_readAll_iff tree (paths.mergeSort inOrder)
  simp only [hmem] at hread
  rw [← hread]
  simp only [reportOnFiles_eq_ok_iff]
  exact ⟨fun ⟨_, files, hfiles, _⟩ => ⟨files, hfiles⟩,
    fun ⟨files, hfiles⟩ => ⟨_, files, hfiles, rfl⟩⟩

end ReportOn

/-! ### What is found -/

/-- Behind a base, paths of names with the same components are the same names. -/
theorem components_join_inj {base : String} {as bs : List String} (has : ∀ n ∈ as, IsName n)
    (hbs : ∀ n ∈ bs, IsName n)
    (h : components (join base (slashPath as)) = components (join base (slashPath bs))) :
    as = bs := by
  have hsteps : steps (slashPath as).toList = steps (slashPath bs).toList := by
    by_cases hbase : base = ""
    · have hjoin : ∀ names, (∀ n ∈ names, IsName n) →
          join base (slashPath names) = slashPath names := fun names hnames => by
        simp [join, isAbsolute_slashPath hnames, hbase]
      rw [hjoin as has, hjoin bs hbs] at h
      rw [← filter_componentsOf, ← filter_componentsOf]
      exact congrArg _ h
    · rw [components_join hbase (isAbsolute_slashPath has),
        components_join hbase (isAbsolute_slashPath hbs)] at h
      exact List.append_cancel_left h
  rw [steps_slashPath has, steps_slashPath hbs] at hsteps
  exact List.map_injective_iff.mpr (fun _ _ => Component.normal.inj) hsteps

theorem distinct_of_discover {a : Analysis} (hw : tree.WellFormed) (hn : tree.Named)
    (h : a.discover tree = .ok paths) : Distinct paths := by
  have hsingle : Distinct [a.root] := List.nodup_singleton _
  unfold discover at h
  split at h
  · cases h
  · rename_i root hroot
    split at h
    · rename_i es hes
      dsimp only at h
      split at h
      · obtain rfl := Except.ok.inj h
        have hwes := hw.get? hes
        have hnes := (hn.get? hes).2
        rw [Distinct, List.map_map]
        refine ((nodup_walk hwes []).filter _).map_on fun names hnames others hothers heq => ?_
        exact components_join_inj (hnes.of_mem_walk hwes (List.mem_of_mem_filter hnames))
          (hnes.of_mem_walk hwes (List.mem_of_mem_filter hothers)) heq
      · cases h
    · obtain rfl := Except.ok.inj h
      exact hsingle

theorem run_eq {a : Analysis} {processDir : String} {resolver : Config.Resolver}
    {resolved : Config.Resolved} (hresolved : (resolver.resolve tree a.request).2 = .ok resolved)
    (hpaths : a.discover tree = .ok paths) :
    (a.run tree processDir resolver).2 =
      ((a.reportOnFiles tree processDir resolved.config paths).mapError .unreadable).map
        (resolved.config, ·) := by
  rw [run]
  split
  · rename_i e he
    rw [he] at hresolved
    cases hresolved
  · rename_i next found hfound
    rw [hfound] at hresolved
    obtain rfl := Except.ok.inj hresolved
    simp only [hpaths]
    cases a.reportOnFiles tree processDir found.config paths <;> rfl

/-- How files at some paths are reported on. -/
structure Arranges (a : Analysis) (tree : FileTree) (processDir : String) (config : Config)
    (paths : List String) : Prop where
  exists_iff : (∃ r, a.reportOnFiles tree processDir config paths = .ok r) ↔
    ∀ p ∈ paths, ∃ text, tree.read p = .ok text
  tells : ∀ r, a.reportOnFiles tree processDir config paths = .ok r →
    a.ReportsOn processDir config tree paths r
  anyOrder : ∀ found : List String, found.Perm paths →
    a.reportOnFiles tree processDir config found = a.reportOnFiles tree processDir config paths

theorem arranges_of_distinct (a : Analysis) (tree : FileTree) (processDir : String)
    (config : Config) {paths : List String} (h : Distinct paths) :
    a.Arranges tree processDir config paths where
  exists_iff := a.exists_reportOnFiles_iff processDir config
  tells _ := a.reportsOn_of_reportOnFiles processDir config h
  anyOrder _ := a.reportOnFiles_perm processDir config h

/-- The report on files is there when all of them can be read. It tells what every rule finds in
each, by place, and does not depend on the order in which the files were found, which a run has
found once each. However a report is made, its counts are those of what was put into it. -/
theorem reports_arranged (a : Analysis) (tree : FileTree) (processDir : String) :
    (∀ config paths, Distinct paths → a.Arranges tree processDir config paths) ∧
    (∀ resolver resolved paths, tree.WellFormed → tree.Named →
      (resolver.resolve tree a.request).2 = .ok resolved → a.discover tree = .ok paths →
      Distinct paths ∧ ∀ found : List String, found.Perm paths →
        (a.run tree processDir resolver).2 =
          ((a.reportOnFiles tree processDir resolved.config found).mapError .unreadable).map
            (resolved.config, ·)) ∧
    ∀ steps, Report.MadeBy steps (Report.after steps) := by
  refine ⟨fun config paths => a.arranges_of_distinct tree processDir config,
    fun resolver resolved paths hw hn hresolved hpaths => ?_, Report.madeBy_after⟩
  have hdistinct := distinct_of_discover hw hn hpaths
  refine ⟨hdistinct, fun found hperm => ?_⟩
  rw [run_eq hresolved hpaths, a.reportOnFiles_perm processDir _ hdistinct hperm]

def mark (code : String) (severity : Severity) (line : Nat) (file : String) : Violation :=
  ⟨code, "mark", "mark", severity, ⟨file, line, 1, 0, 0⟩, "marked", none⟩

/-- A rule that marks a line of every file. -/
def marking (code : String) (severity : Severity) (line : Nat) : Rule :=
  ⟨code, "mark", "marks a line", severity, fun file _ _ =>
    [mark code severity line file.reportPath]⟩

/-- A project with two files. By their letters `a.ts` would come first, by components it does
not. -/
def project : FileTree :=
  .directory [("p", .directory
    [("a", .directory [("z.ts", .file (.text ""))]), ("a.ts", .file (.text ""))])]

/-- Three rules, of which the first and the last one mark the same line, behind that of the
second. -/
def marked : Analysis :=
  ⟨"/p", [marking "A" .error 2, marking "B" .info 1, marking "C" .warning 2], [],
    ⟨"/p", none, none⟩⟩

def markedReport : Report :=
  ⟨[mark "B" .info 1 "a/z.ts", mark "A" .error 2 "a/z.ts", mark "C" .warning 2 "a/z.ts",
    mark "B" .info 1 "a.ts", mark "A" .error 2 "a.ts", mark "C" .warning 2 "a.ts"], 2⟩

theorem reportOnFiles_marked (config : Config) :
    marked.reportOnFiles project "/p" config ["/p/a.ts", "/p/a/z.ts"] = .ok markedReport := by
  have hsort : ["/p/a.ts", "/p/a/z.ts"].mergeSort inOrder = ["/p/a/z.ts", "/p/a.ts"] := by
    have hlater : inOrder "/p/a.ts" "/p/a/z.ts" = false := by decide +kernel
    simp [List.mergeSort, hlater]
  have hread : readAll project ["/p/a/z.ts", "/p/a.ts"] =
      .ok [("/p/a/z.ts", ""), ("/p/a.ts", "")] := rfl
  have hfirst : marked.checkText "/p" config "/p/a/z.ts" "" = [mark "A" .error 2 "a/z.ts",
      mark "B" .info 1 "a/z.ts", mark "C" .warning 2 "a/z.ts"] := rfl
  have hsecond : marked.checkText "/p" config "/p/a.ts" "" = [mark "A" .error 2 "a.ts",
      mark "B" .info 1 "a.ts", mark "C" .warning 2 "a.ts"] := rfl
  have hlt : Path.compare "a/z.ts" "a.ts" = .lt := by decide +kernel
  have heq : ∀ p : String, Path.compare p p = .eq := fun _ => compare_eq_iff.mpr rfl
  rw [reportOnFiles, hsort, hread]
  simp [Except.map, reportOn, hfirst, hsecond, Report.sort, List.mergeSort, Violation.precedes,
    mark, markedReport, hlt, heq, Nat.compare_eq_ite_lt]

theorem project_reported : project.WellFormed ∧ project.Named ∧
    marked.discover project = .ok ["/p/a/z.ts", "/p/a.ts"] ∧
    Distinct ["/p/a/z.ts", "/p/a.ts"] ∧
    (∃ config, (marked.run project "/p" {}).2 = .ok (config, markedReport) ∧
      marked.ReportsOn "/p" config project ["/p/a/z.ts", "/p/a.ts"] markedReport) ∧
    Report.MadeBy [.append markedReport, .sort, .push (mark "D" .info 9 "b.ts"), .checked 1]
      (Report.after
        [.append markedReport, .sort, .push (mark "D" .info 9 "b.ts"), .checked 1]) := by
  have hw : project.WellFormed := by decide
  have hn : project.Named := by decide
  have hdiscover : marked.discover project = .ok ["/p/a/z.ts", "/p/a.ts"] := rfl
  obtain ⟨resolved, hresolved⟩ :
      ∃ resolved, (Config.Resolver.resolve {} project marked.request).2 = .ok resolved := ⟨_, rfl⟩
  obtain ⟨hreports, hruns, hsteps⟩ := reports_arranged marked project "/p"
  obtain ⟨hdistinct, hrun⟩ := hruns {} resolved _ hw hn hresolved hdiscover
  -- the files are found the other way round
  have hperm : ["/p/a.ts", "/p/a/z.ts"].Perm ["/p/a/z.ts", "/p/a.ts"] := .swap _ _ _
  have harranges := hreports resolved.config _ hdistinct
  have hmarked := reportOnFiles_marked resolved.config
  refine ⟨hw, hn, hdiscover, hdistinct, ⟨resolved.config, ?_, harranges.tells _ ?_⟩, hsteps _⟩
  · rw [hrun _ hperm, hmarked]
    rfl
  · rw [← harranges.anyOrder _ hperm, hmarked]

end TokenLint.Analysis
