import Mathlib.Data.List.Nodup
import TokenLint.Proofs.FileTree.WellFormed
import TokenLint.Proofs.Migration.Changed

/-!
# What a run leaves and reports

A run goes codemod by codemod over all targets. Seen from one target it is the codemods in their
order: each reads what the ones before it have left of the target's text. The invariant of the run
is this state of every target, with all other files as at the start.
-/
namespace TokenLint.Migration

/-- What codemods leave of a text, one after another. -/
def revisedBy (cs : List Codemod) (text : String) : String :=
  cs.foldl (fun text c => c.revised text) text

theorem revisedBy_concat (cs : List Codemod) (c : Codemod) (text : String) :
    revisedBy (cs ++ [c]) text = c.revised (revisedBy cs text) := by
  rw [revisedBy, List.foldl_append]
  rfl

variable {files : List (List String)}

/-- One codemod over all targets: it reports each by the text that the target has, and leaves the
revised texts and nothing else. -/
theorem transformAll_pass (c : Codemod) (nodup : files.Nodup) : ∀ tree : FileTree,
    (transformAll false tree (files.map (c, ·))).2 =
      files.map (fun f => report c f (textAt? tree f)) ∧
    (∀ f ∈ files, textAt? (transformAll false tree (files.map (c, ·))).1 f =
      (textAt? tree f).map c.revised) ∧
    ∀ path, (∀ f ∈ files, (textAt? tree f).isSome → path ≠ f) →
      (transformAll false tree (files.map (c, ·))).1.fileAt? path = tree.fileAt? path := by
  induction files with
  | nil => exact fun tree => ⟨rfl, by simp, fun path _ => rfl⟩
  | cons f files ih =>
    intro tree
    obtain ⟨hf, nodup⟩ := List.nodup_cons.mp nodup
    obtain ⟨hreports, htexts, hothers⟩ := ih nodup (transform false c tree f).1
    have hsame : ∀ g ∈ files, textAt? (transform false c tree f).1 g = textAt? tree g :=
      fun g hg => textAt?_transform_of_ne fun h => hf (h ▸ hg)
    rw [List.map_cons, transformAll_cons]
    refine ⟨?_, fun g hg => ?_, fun path hpath => ?_⟩
    · dsimp only
      rw [hreports, List.map_cons]
      refine congrArg _ (List.map_congr_left fun g hg => ?_)
      rw [hsame g hg]
    · rcases List.mem_cons.mp hg with rfl | hg
      · have hkept := hothers g fun h hh _ heq => hf (heq ▸ hh)
        rw [textAt?_congr hkept, textAt?_transform_self]
      · rw [htexts g hg, hsame g hg]
    · rw [hothers path fun g hg hread => ?_]
      · refine fileAt?_transform_of_ne ?_
        cases htext : textAt? tree f with
        | none => exact Or.inr rfl
        | some text => exact Or.inl (hpath f List.mem_cons_self (by rw [htext]; rfl))
      · rw [hsame g hg] at hread
        exact hpath g (List.mem_cons_of_mem f hg) hread

/-- Codemods over all targets, when others have run before: `start` is the tree before all. -/
theorem transformAll_passes (nodup : files.Nodup) (start : FileTree) (cs : List Codemod) :
    ∀ (done : List Codemod) (tree : FileTree),
    (∀ f ∈ files, textAt? tree f = (textAt? start f).map (revisedBy done)) →
    (transformAll false tree (cs.flatMap fun c => files.map (c, ·))).2 =
      (cs.zipIdx done.length).flatMap (fun p => files.map fun f =>
        report p.1 f ((textAt? start f).map (revisedBy ((done ++ cs).take p.2)))) ∧
    (∀ f ∈ files, textAt? (transformAll false tree (cs.flatMap fun c => files.map (c, ·))).1 f =
      (textAt? start f).map (revisedBy (done ++ cs))) ∧
    ∀ path, (∀ f ∈ files, (textAt? start f).isSome → path ≠ f) →
      (transformAll false tree (cs.flatMap fun c => files.map (c, ·))).1.fileAt? path =
        tree.fileAt? path := by
  induction cs with
  | nil =>
    intro done tree htree
    rw [List.append_nil]
    exact ⟨rfl, htree, fun path _ => rfl⟩
  | cons c cs ih =>
    intro done tree htree
    obtain ⟨hreports, htexts, hothers⟩ := transformAll_pass c nodup tree
    have hnext : ∀ f ∈ files, textAt? (transformAll false tree (files.map (c, ·))).1 f =
        (textAt? start f).map (revisedBy (done ++ [c])) := by
      intro f hf
      rw [htexts f hf, htree f hf, Option.map_map]
      cases textAt? start f with
      | none => rfl
      | some text => exact congrArg some (revisedBy_concat done c text).symm
    obtain ⟨hreports', htexts', hothers'⟩ := ih (done ++ [c]) _ hnext
    rw [List.append_assoc, List.singleton_append] at hreports' htexts'
    rw [List.flatMap_cons, transformAll_append]
    refine ⟨?_, htexts', fun path hpath => ?_⟩
    · have hlength : (done ++ [c]).length = done.length + 1 := by simp
      have hbefore : (done ++ c :: cs).take done.length = done := by simp
      dsimp only
      rw [hreports, hreports', hlength, List.zipIdx_cons, List.flatMap_cons, hbefore]
      refine congrArg (· ++ _) (List.map_congr_left fun f hf => ?_)
      rw [htree f hf]
    · rw [hothers' path hpath]
      refine hothers path fun f hf hread => hpath f hf ?_
      rw [htree f hf, Option.isSome_map] at hread
      exact hread

/-- The tree at the root of a migration. -/
def project (tree : FileTree) (base : List String) : FileTree := (tree.get? base).getD .empty

/-- After a run at the place `base`, the targets hold what the codemods make of them, all other
files are those of before, and the outcomes tell of every codemod and target what the codemod did
to the text that it read. -/
structure Commits (m : Migration) (tree : FileTree) (base : List String) (after : FileTree)
    (outcomes : List Outcome) : Prop where
  targets : ∀ names ∈ m.targets.collect (project tree base), ∀ text,
    textAt? (project tree base) names = some text →
      after.fileAt? (base ++ names) = some (.text (revisedBy m.codemods text))
  others : ∀ path, (∀ names ∈ m.targets.collect (project tree base),
    (textAt? (project tree base) names).isSome → path ≠ base ++ names) →
      after.fileAt? path = tree.fileAt? path
  /-- Codemod by codemod, a report of each target on the text left by the codemods before. -/
  reports : outcomes = m.codemods.zipIdx.flatMap fun p =>
    (m.targets.collect (project tree base)).map fun names =>
      report p.1 names
        ((textAt? (project tree base) names).map (revisedBy (m.codemods.take p.2)))

/-- A run in a tree of its own. -/
theorem run_real {m : Migration} (hreal : m.dry = false) {tree : FileTree}
    (hw : tree.WellFormed) :
    (m.run tree).2 = m.codemods.zipIdx.flatMap (fun p => (m.targets.collect tree).map fun f =>
      report p.1 f ((textAt? tree f).map (revisedBy (m.codemods.take p.2)))) ∧
    (∀ f ∈ m.targets.collect tree, textAt? (m.run tree).1 f =
      (textAt? tree f).map (revisedBy m.codemods)) ∧
    ∀ path, (∀ f ∈ m.targets.collect tree, (textAt? tree f).isSome → path ≠ f) →
      (m.run tree).1.fileAt? path = tree.fileAt? path := by
  have hstart : ∀ f ∈ m.targets.collect tree,
      textAt? tree f = (textAt? tree f).map (revisedBy []) := by
    intro f _
    cases textAt? tree f <;> rfl
  have h := transformAll_passes (m.targets.nodup_collect hw) tree m.codemods [] tree hstart
  unfold run
  rw [hreal]
  exact h

theorem run_dry {m : Migration} (hdry : m.dry = true) (tree : FileTree) :
    (m.run tree).1 = tree := by
  unfold run
  rw [hdry]
  exact transformAll_dry tree _

theorem wellFormed_transform {dry : Bool} {c : Codemod} {tree : FileTree} {names : List String}
    (hw : tree.WellFormed) : (transform dry c tree names).1.WellFormed := by
  unfold transform
  dsimp only
  split
  · exact hw
  · split
    · exact hw
    · dsimp only
      split
      · exact hw
      · exact hw.put (.file _) names

/-- No step of a run leaves a directory out of order. -/
theorem wellFormed_transformAll (dry : Bool) (pairs : List (Codemod × List String)) :
    ∀ {tree : FileTree}, tree.WellFormed → (transformAll dry tree pairs).1.WellFormed := by
  induction pairs with
  | nil => exact fun hw => hw
  | cons p pairs ih =>
    intro tree hw
    obtain ⟨c, names⟩ := p
    rw [transformAll_cons]
    exact ih (wellFormed_transform hw)

/-- A run at a root is a run in the tree that the root leads to, put back in its place. -/
theorem runAt_eq_ok {m : Migration} {tree after : FileTree} {root : String}
    {outcomes : List Outcome} (h : m.runAt tree root = .ok (after, outcomes)) :
    ∃ base sub, tree.locate root = .ok base ∧ tree.get? base = some sub ∧
      after = tree.put base (m.run sub).1 ∧ outcomes = (m.run sub).2 := by
  unfold runAt at h
  split at h
  · cases h
  · rename_i base hbase
    obtain ⟨sub, hsub⟩ := Option.isSome_iff_exists.mp (FileTree.isSome_get?_of_locate hbase)
    rw [hsub, Option.getD_some] at h
    obtain ⟨hafter, houtcomes⟩ := Prod.mk.inj (Except.ok.inj h)
    exact ⟨base, sub, hbase, hsub, hafter.symm, houtcomes.symm⟩

/-- What is done in the tree at a place is seen from the whole tree. -/
theorem commits_put {m : Migration} (hreal : m.dry = false) {tree sub : FileTree}
    {base : List String} (hw : sub.WellFormed) (hsub : tree.get? base = some sub) :
    m.Commits tree base (tree.put base (m.run sub).1) (m.run sub).2 := by
  obtain ⟨hreports, htexts, hothers⟩ := run_real hreal hw
  have hproject : project tree base = sub := by rw [project, hsub, Option.getD_some]
  constructor
  · intro names hnames text htext
    rw [hproject] at hnames htext
    have hrevised := htexts names hnames
    rw [htext] at hrevised
    have hfile := (textAt?_eq_some.mp hrevised).2
    unfold FileTree.fileAt? at hfile ⊢
    rwa [FileTree.get?_put_append]
  · intro path hpath
    rw [hproject] at hpath
    by_cases hpre : base <+: path
    · obtain ⟨names, rfl⟩ := hpre
      have hkept := hothers names fun f hf hread heq => hpath f hf hread (by rw [heq])
      unfold FileTree.fileAt? at hkept ⊢
      rwa [FileTree.get?_put_append, FileTree.get?_append, hsub, Option.bind_some]
    · exact FileTree.fileAt?_put_of_not_prefix _ (by rw [hsub]; rfl) hpre
  · rw [hproject]
    exact hreports

/-- A run that is not dry commits, codemod by codemod; a dry run leaves the tree as it is. The tree
that is left is fit for another run. -/
theorem runAt_commits {m : Migration} {tree after : FileTree} {root : String}
    {outcomes : List Outcome} (hw : tree.WellFormed)
    (h : m.runAt tree root = .ok (after, outcomes)) :
    after.WellFormed ∧ ∃ base, tree.locate root = .ok base ∧ (m.dry = true → after = tree) ∧
      (m.dry = false → m.Commits tree base after outcomes) := by
  obtain ⟨base, sub, hbase, hsub, rfl, rfl⟩ := runAt_eq_ok h
  have hsubw : sub.WellFormed := hw.get? hsub
  refine ⟨hw.put (wellFormed_transformAll m.dry _ hsubw) base, base, hbase, fun hdry => ?_,
    fun hreal => commits_put hreal hsubw hsub⟩
  rw [run_dry hdry, FileTree.put_get? hw hsub]

theorem drafts_wellFormed : drafts.WellFormed := by
  refine .directory (List.pairwise_singleton _ _) fun e he => ?_
  obtain rfl := List.mem_singleton.mp he
  refine .directory (List.pairwise_singleton _ _) fun e he => ?_
  obtain rfl := List.mem_singleton.mp he
  exact .file _

theorem drafts_commits : drafts.WellFormed ∧ ∃ after outcomes,
    growing.runAt drafts "/project" = .ok (after, outcomes) ∧
    after.fileAt? ["project", "draft"] = some (.text "ab") ∧ after.WellFormed ∧
    ∃ base, drafts.locate "/project" = .ok base ∧ (growing.dry = true → after = drafts) ∧
      (growing.dry = false → growing.Commits drafts base after outcomes) := by
  have hwf := drafts_wellFormed
  obtain ⟨⟨after, outcomes⟩, hrun⟩ : ∃ r, growing.runAt drafts "/project" = .ok r := ⟨_, rfl⟩
  have htext : (growing.runAt drafts "/project").toOption.bind
      (·.1.fileAt? ["project", "draft"]) = some (.text "ab") := by decide +kernel
  rw [hrun] at htext
  exact ⟨hwf, after, outcomes, hrun, htext, runAt_commits hwf hrun⟩

end TokenLint.Migration
