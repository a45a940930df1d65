import TokenLint.FileTree
import TokenLint.Glob.Match

/-!
# Targets of a migration

A file is a target when it matches one of the included globs and none of the excluded ones, and
lies below no ignored directory.
-/
namespace TokenLint

structure Targets where
  included : List Glob
  excluded : List Glob

namespace Targets

def defaultIncluded : List String :=
  ["components/**/*.tsx", "app/**/*.tsx", "lib/**/*.tsx"]

def defaultExcluded : List String :=
  ["**/__tests__/**", "**/*.stories.tsx", "**/*.spec.tsx"]

/-- Compiles globs that mind case; the first that is none is the error. -/
def compileAll : List String → Except Glob.Error (List Glob)
  | [] => .ok []
  | p :: ps =>
    match Glob.compile p false with
    | .error e => .error e
    | .ok g => (compileAll ps).map (g :: ·)

/-- The defaults with more globs to include and to exclude. -/
def ofPatterns (included excluded : List String) : Except Glob.Error Targets :=
  match compileAll (defaultIncluded ++ included) with
  | .error e => .error e
  | .ok gs => (compileAll (defaultExcluded ++ excluded)).map (⟨gs, ·⟩)

/-- Whether a path relative to the root is a target. -/
def contains (t : Targets) (path : String) : Bool :=
  t.included.any (·.accepts path) && !t.excluded.any (·.accepts path)

/-- A walk for targets passes ignored directories by, but not files with such a name. -/
def enters (names : List String) (isDirectory : Bool) : Bool :=
  !(isDirectory && ignoredDirectories.contains (names.getLast?.getD ""))

/-- Without elements equal to the one before. -/
def withoutRepeats : List (List String) → List (List String)
  | a :: b :: rest =>
    if a == b then withoutRepeats (b :: rest) else a :: withoutRepeats (b :: rest)
  | short => short

def inOrder (a b : List String) : Bool := slashPath a ≤ slashPath b

/-- The targets in a tree, in the order of their paths as texts. -/
def collect (t : Targets) (tree : FileTree) : List (List String) :=
  withoutRepeats
    (((tree.walk enters []).filter fun names => t.contains (slashPath names)).mergeSort inOrder)

end Targets
end TokenLint
