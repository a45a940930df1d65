import TokenLint.Proofs.Migration.Transform
import TokenLint.Proofs.Text.Words

/-!
# The count of changed files

A dry run reads the untouched texts in every step, a run that is not dry reads what was written
before. Single outcomes may differ. The count of changed files is the same, since a file counts
when some step changes it, and the first such step reads the untouched text in either run.
-/
namespace TokenLint

namespace Migration

theorem changedFiles_congr {first second : List Outcome}
    (h : ∀ file, (∃ o ∈ first, o.applied ∧ o.file = file) ↔
      ∃ o ∈ second, o.applied ∧ o.file = file) : changedFiles first = changedFiles second := by
  have hmem : ∀ (os : List Outcome) (file : String),
      file ∈ (os.filter (·.applied)).map (·.file) ↔ ∃ o ∈ os, o.applied ∧ o.file = file := by
    intro os file
    simp only [List.mem_map, List.mem_filter, and_assoc]
  refine Text.length_distinct_congr fun file => ?_
  rw [hmem, hmem, h]

theorem changedFiles_run (m : Migration) (tree : FileTree) :
    changedFiles ({ m with dry := true }.run tree).2 =
      changedFiles ({ m with dry := false }.run tree).2 := by
  refine changedFiles_congr fun file => ?_
  unfold run
  dsimp only
  rw [exists_applied_iff, exists_applied_iff]

/-- A dry run counts the files that a run started from the same files changes. -/
theorem changedFiles_runAt_dry (m : Migration) (tree : FileTree) (root : String) :
    ({ m with dry := true }.runAt tree root).map (changedFiles ∘ Prod.snd) =
      ({ m with dry := false }.runAt tree root).map (changedFiles ∘ Prod.snd) := by
  unfold runAt
  cases tree.locate root with
  | error e => rfl
  | ok names =>
    have h := changedFiles_run m ((tree.get? names).getD .empty)
    exact congrArg Except.ok h

/-- Two codemods, the second of which goes on where the first ends. -/
def growing : Migration where
  codemods :=
    [⟨"first", "", fun file => if file.text = "" then [.insert 0 "a"] else []⟩,
     ⟨"second", "", fun file => if file.text = "a" then [.insert 1 "b"] else []⟩]
  targets := ⟨[⟨[.deepStart], false⟩], []⟩

def drafts : FileTree :=
  .directory [("project", .directory [("draft", .file (.text ""))])]

-- the single outcomes of the two runs differ
example :
    (transformAll true drafts (growing.codemods.map (·, ["project", "draft"]))).2.map (·.applied) =
      [true, false] ∧
    (transformAll false drafts (growing.codemods.map (·, ["project", "draft"]))).2.map (·.applied) =
      [true, true] := by
  decide +kernel

end Migration
end TokenLint
