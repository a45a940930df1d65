import TokenLint.FileTree
import TokenLint.Guard.Scan

/-!
# The guard's sweep

The guard sweeps some directories below a root, stylesheets and documents among the sources. It
walks them in the order of names, and passes files and directories with an ignored name by.
-/
namespace TokenLint.Guard

/-- The directories that are swept when none are named. -/
def defaultDirectories : List String :=
  ["components/sections", "components/pricing", "components/marketing", "components/diagnostic"]

/-- Files with one of these in their path are collected but not read. -/
def exemptFragments : List String :=
  ["components/marketing/forms", "components/marketing/navigation"]

def extensions : List String := ["ts", "tsx", "css", "scss", "mdx", "jsx"]

def enters (names : List String) (_ : Bool) : Bool :=
  !ignoredDirectories.contains (names.getLast?.getD "")

/-- Whether names lead to a file that the guard reads. -/
def isGuarded (names : List String) : Bool :=
  ((names.getLast?.bind Path.extensionOf?).map extensions.contains).getD false

/-- The guarded files of a directory, by their paths relative to the root, which is seen from the
working directory. What is no directory has no files. -/
def collectIn (tree : FileTree) (workDir root dir : String) : List (String × Content) :=
  let start := Path.join root dir
  match tree.find (Path.join workDir start) with
  | .ok (.directory es) =>
    let found := FileTree.directory es
    (found.walk enters []).filterMap fun names =>
      match found.get? names with
      | some (.file content) =>
        if isGuarded names then
          some (Path.relativeTo [root] (Path.join start (slashPath names)), content)
        else none
      | _ => none
  | _ => []

/-- The guarded files of all directories, directory by directory. -/
def collect (tree : FileTree) (workDir root : String) (dirs : List String) :
    List (String × Content) :=
  dirs.flatMap (collectIn tree workDir root)

def isExempt (path : String) : Bool :=
  exemptFragments.any fun fragment => Text.contains path.toList fragment.toList

/-- What the guard finds in the files of some directories. -/
def sweep (tree : FileTree) (workDir root : String) (dirs : List String) : List Hit :=
  ((collect tree workDir root dirs).filter fun (path, _) => !isExempt path).flatMap
    fun (path, content) => scan path content.readable

end TokenLint.Guard
