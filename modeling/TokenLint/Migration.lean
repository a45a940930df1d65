import TokenLint.Codemod.Catalog
import TokenLint.Targets

/-!
# Migration of a project

A migration runs codemods over its targets, codemod by codemod, so that each codemod reads what
the ones before it have written. A dry run writes nothing.
-/
namespace TokenLint

/-- What a codemod did to a file. -/
structure Outcome where
  codemod : String
  file : String
  /-- Whether the codemod changed the text it read. -/
  applied : Bool
  note : Option String := none
  deriving DecidableEq, Repr

structure Migration where
  codemods : List Codemod
  targets : Targets
  dry : Bool := false
  /-- Whether files that stay as they are appear in the output. -/
  verbose : Bool := false

namespace Migration

inductive Error where
  | unknownCodemod (name : String)
  | badGlob (e : Glob.Error)
  | unwalkable (root : String) (e : FileError)
  deriving DecidableEq, Repr

def Error.message : Error → String
  | unknownCodemod name => s!"unknown codemod '{name}'"
  | badGlob e => s!"invalid glob pattern '{e.pattern}': {e.message}"
  | unwalkable root e =>
    s!"failed to walk {root}: IO error for operation on {root}: {e.message}"

/-- What a caller may say of a migration. -/
structure Options where
  dry : Bool := false
  verbose : Bool := false
  included : List String := []
  excluded : List String := []
  /-- The one codemod to run. -/
  only : Option String := none

/-- The codemods to run, in order. -/
def codemodsFor : Option String → Except Error (List Codemod)
  | none => .ok Codemod.all
  | some name => (Codemod.find? name).elim (.error (.unknownCodemod name)) fun c => .ok [c]

def prepare (o : Options) : Except Error Migration :=
  match codemodsFor o.only with
  | .error e => .error e
  | .ok codemods =>
    match Targets.ofPatterns o.included o.excluded with
    | .error e => .error (.badGlob e)
    | .ok targets => .ok ⟨codemods, targets, o.dry, o.verbose⟩

def missingSource : String := "missing source"

/-- The text of the file that names lead to. The tree itself is no file of its own. -/
def textAt? (tree : FileTree) : List String → Option String
  | [] => none
  | n :: ns => (tree.get? (n :: ns)).bind fun t => t.text.toOption

/-- Runs a codemod over one file. -/
def transform (dry : Bool) (c : Codemod) (tree : FileTree) (names : List String) :
    FileTree × Outcome :=
  let file := slashPath names
  match textAt? tree names with
  | none => (tree, ⟨c.name, file, false, some missingSource⟩)
  | some text =>
    match c.revise? text with
    | none => (tree, ⟨c.name, file, false, none⟩)
    | some revised =>
      (if dry then tree else tree.put names (.file (.text revised)),
        ⟨c.name, file, true, none⟩)

/-- Runs a codemod over the file that a path leads to, as seen from a root. -/
def transformAt (dry : Bool) (c : Codemod) (tree : FileTree) (root file : String) :
    FileTree × Outcome :=
  match tree.locate (Path.join root file) with
  | .error _ => (tree, ⟨c.name, file, false, some missingSource⟩)
  | .ok names =>
    let (tree, outcome) := transform dry c tree names
    (tree, { outcome with file := file })

/-- Runs codemods over files, each pair of which is given in order. -/
def transformAll (dry : Bool) : FileTree → List (Codemod × List String) →
    FileTree × List Outcome
  | tree, [] => (tree, [])
  | tree, (c, names) :: rest =>
    let (tree, outcome) := transform dry c tree names
    let (tree, outcomes) := transformAll dry tree rest
    (tree, outcome :: outcomes)

/-- Runs a migration over the tree at its root. -/
def run (m : Migration) (tree : FileTree) : FileTree × List Outcome :=
  let files := m.targets.collect tree
  transformAll m.dry tree (m.codemods.flatMap fun c => files.map (c, ·))

/-- Runs a migration at a root within a tree. -/
def runAt (m : Migration) (tree : FileTree) (root : String) :
    Except Error (FileTree × List Outcome) :=
  match tree.locate root with
  | .error e => .error (.unwalkable root e)
  | .ok names =>
    let (found, outcomes) := m.run ((tree.get? names).getD .empty)
    .ok (tree.put names found, outcomes)

/-- How many files some codemod changed. -/
def changedFiles (outcomes : List Outcome) : Nat :=
  (Text.distinct ((outcomes.filter (·.applied)).map (·.file))).length

def summary (m : Migration) (outcomes : List Outcome) : String :=
  let n := changedFiles outcomes
  if m.dry then s!"{n} files would be updated." else s!"{n} files updated."

/-- The line about an outcome. -/
def line (m : Migration) (o : Outcome) : String :=
  let status :=
    if !o.applied then "skipped" else if m.dry then "would update" else "updated"
  let note := o.note.elim "" fun text => s!" ({text})"
  s!"[{o.codemod}] {status} {o.file}{note}"

/-- What a migration tells of its outcomes. -/
def output (m : Migration) (outcomes : List Outcome) : String :=
  let told := outcomes.filter fun o => o.applied || m.verbose
  String.join (told.map fun o => m.line o ++ "\n") ++ "\n" ++ m.summary outcomes ++ "\n"

end Migration
end TokenLint
