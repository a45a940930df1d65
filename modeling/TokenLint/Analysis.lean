import TokenLint.Config.Resolver
import TokenLint.IgnoreFile
import TokenLint.Rule

/-!
# Analysis of a project

An analysis looks at the source files below a root, or at one file, and reports in the order of
files, lines and columns.
-/
namespace TokenLint

/-- Extensions of source files. -/
def sourceExtensions : List String := ["ts", "tsx", "js", "jsx", "mjs", "cjs"]

structure Analysis where
  /-- The directory or file that is looked at, as an absolute path. -/
  root : String
  rules : List Rule
  /-- Files that are left out, by their paths relative to the root. -/
  excluded : List Glob
  request : Config.Request

namespace Analysis

/-- Why there is no report. -/
inductive Error where
  | badGlob (e : Glob.Error)
  | badConfig (e : Config.Error)
  | unwalkable (root reason : String)
  | unreadable (e : FileError)
  deriving DecidableEq, Repr

def Error.message : Error → String
  | badGlob e => s!"Invalid glob pattern: {e.message}"
  | badConfig e => e.message
  | unwalkable root reason => s!"Failed to walk {root}: {reason}"
  | unreadable e => s!"IO error: {e.message}"

/-- What is left out when nothing else is. -/
def defaultExcluded : List String := ["**/*.d.ts", "**/*.min.js"]

/-- Compiles globs that ignore case; the first that is none is the error. -/
def compileExcluded : List String → Except Glob.Error (List Glob)
  | [] => .ok []
  | p :: ps =>
    match Glob.compile p true with
    | .error e => .error e
    | .ok g => (compileExcluded ps).map (g :: ·)

/-- What a caller may say of an analysis. -/
structure Options where
  root : String := "."
  workDir : Option String := none
  excluded : List String := []
  rules : List Rule := []
  configPath : Option String := none
  allowlistPath : Option String := none

/-- The directory of the run: the one that was given, or else that of the root. -/
def Options.workDirIn (o : Options) (tree : FileTree) (processDir : String) : String :=
  let root := Path.join processDir o.root
  match o.workDir with
  | some dir => Path.join processDir dir
  | none => if tree.holdsFile root then Path.parent root else root

/-- An analysis by a program that runs in some directory. -/
def prepare (tree : FileTree) (processDir : String) (o : Options) : Except Error Analysis :=
  match compileExcluded (if o.excluded.isEmpty then defaultExcluded else o.excluded) with
  | .error e => .error (.badGlob e)
  | .ok globs =>
    .ok ⟨Path.join processDir o.root, o.rules, globs,
      ⟨o.workDirIn tree processDir, o.configPath, o.allowlistPath⟩⟩

/-- Whether a walk enters a directory or looks at a file, by the names from the root of the tree. -/
def enters (ignoring : List IgnoreFile) (names : List String) (isDirectory : Bool) : Bool :=
  !IgnoreFile.ignores ignoring names isDirectory &&
    !(isDirectory && ignoredDirectories.contains (names.getLast?.getD ""))

def isSource (names : List String) : Bool :=
  ((names.getLast?.bind Path.extensionOf?).map sourceExtensions.contains).getD false

/-- Whether a file below the root is looked at. -/
def accepts (a : Analysis) (names : List String) : Bool :=
  isSource names && !a.excluded.any (·.accepts (slashPath names))

/-- What is wrong with the files above a directory that tell what to ignore. -/
def faultsAbove (tree : FileTree) (names : List String) : List String :=
  (IgnoreFile.ancestors names).reverse.flatMap fun directory =>
    IgnorePlace.all.flatMap fun place =>
      ((IgnoreFile.at? tree directory place).map (·.faults)).getD []

/-- The files to look at. -/
def discover (a : Analysis) (tree : FileTree) : Except Error (List String) :=
  match tree.locate a.root with
  | .error e =>
    .error (.unwalkable a.root
      s!"{a.root}: IO error for operation on {a.root}: {e.message}")
  | .ok root =>
    match tree.get? root with
    | some (.directory es) =>
      let faults := faultsAbove tree root
      if faults.isEmpty then
        let ignoring := IgnoreFile.all tree
        let walked := FileTree.walk (fun names => enters ignoring (root ++ names)) []
          (.directory es)
        .ok ((walked.filter a.accepts).map fun names => Path.join a.root (slashPath names))
      else .error (.unwalkable a.root ("\n".intercalate faults))
    | _ => .ok [a.root]

/-- What the rules find in a text, rule by rule. -/
def checkText (a : Analysis) (processDir : String) (config : Config) (path text : String) :
    List Violation :=
  let file := SourceFile.parse text
  let context := FileContext.ofPath processDir a.request.workDir path
  a.rules.flatMap fun rule => rule.check context file config

/-- Reads files until one cannot be read. -/
def readAll (tree : FileTree) : List String → Except FileError (List (String × String))
  | [] => .ok []
  | path :: paths =>
    match tree.read path with
    | .error e => .error e
    | .ok text => (readAll tree paths).map ((path, text) :: ·)

def inOrder (a b : String) : Bool := (Path.compare a b).isLE

/-- The report on texts by path. -/
def reportOn (a : Analysis) (processDir : String) (config : Config)
    (texts : List (String × String)) : Report :=
  Report.sort
    ⟨texts.flatMap fun (path, text) => a.checkText processDir config path text, texts.length⟩

/-- Looks at files, in whatever order they were found. -/
def reportOnFiles (a : Analysis) (tree : FileTree) (processDir : String) (config : Config)
    (paths : List String) : Except FileError Report :=
  (readAll tree (paths.mergeSort inOrder)).map (a.reportOn processDir config)

/-- Runs an analysis with the configurations resolved so far. -/
def run (a : Analysis) (tree : FileTree) (processDir : String) (resolver : Config.Resolver) :
    Config.Resolver × Except Error (Config × Report) :=
  match resolver.resolve tree a.request with
  | (resolver, .error e) => (resolver, .error (.badConfig e))
  | (resolver, .ok resolved) =>
    (resolver,
      match a.discover tree with
      | .error e => .error e
      | .ok paths =>
        match a.reportOnFiles tree processDir resolved.config paths with
        | .error e => .error (.unreadable e)
        | .ok report => .ok (resolved.config, report))

end Analysis
end TokenLint
