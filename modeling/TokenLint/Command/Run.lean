import TokenLint.Analysis
import TokenLint.Command.Invocation
import TokenLint.Command.Starter
import TokenLint.Config.Discovery
import TokenLint.Guard.Sweep
import TokenLint.Migration
import TokenLint.Report.Snippet

/-!
# What commands do

A command reads and changes a tree of files. It ends with an exit code and with what it has
written to its two outputs.
-/
namespace TokenLint.Command

/-- How a command ends. -/
structure Ending where
  code : Nat
  out : String := ""
  err : String := ""
  tree : FileTree

/-- Where a command runs: the files, the working directory, and the environment. -/
structure Setting where
  tree : FileTree
  workDir : String
  environment : List (String × String) := []

namespace Setting

/-- An ending that leaves the files as they are. -/
def stop (s : Setting) (code : Nat) (out err : String) : Ending := ⟨code, out, err, s.tree⟩

/-- The lines of a cause, set in, and numbered if there are several causes. -/
def causeLines (number : Option Nat) (cause : String) : String :=
  let (first, others) := match number with
    | none => ("    ", "    ")
    | some n => (Text.row ' ' (5 - (toString n).length) ++ s!"{n}: ", Text.row ' ' 7)
  "\n".intercalate <|
    match (Text.splitOn '\n' cause.toList).map String.ofList with
    | [] => []
    | line :: lines => (first ++ line) :: lines.map (others ++ ·)

/-- What is said of a failure and of its causes, the nearest first. -/
def failureText (failure : String) (causes : List String) : String :=
  let told := match causes with
    | [] => ""
    | [cause] => "\n\nCaused by:\n" ++ causeLines none cause
    | _ =>
      "\n\nCaused by:\n" ++
        "\n".intercalate (causes.zipIdx.map fun (cause, n) => causeLines (some n) cause)
  s!"Error: {failure}{told}\n"

/-- An ending with a failure. -/
def fail (s : Setting) (failure : String) (causes : List String) : Ending :=
  s.stop 1 "" (failureText failure causes)

/-- What made a configuration fail. -/
def configCauses : Config.Error → List String
  | .unreadable path reason => [(Config.Error.unreadable path reason).message, reason]
  | e => [e.message]

/-- What made an analysis fail. -/
def analysisCauses : Analysis.Error → List String
  | .badGlob e => [(Analysis.Error.badGlob e).message, e.message]
  | .badConfig e => configCauses e
  | .unwalkable root reason => [(Analysis.Error.unwalkable root reason).message]
  | .unreadable e => [(Analysis.Error.unreadable e).message, e.message]

/-- A report as it is told. -/
def told (s : Setting) (format : Format) (r : Report) : String :=
  match format with
  | .text => r.listing
  | .pretty => r.pretty fun file => (s.tree.read (Path.join s.workDir file)).toOption
  | .json => r.toJson.text ++ "\n"
  | .compact => r.compact

def check (s : Setting) (origins : Config.Origins) (path : String) (format : Format)
    (rules : List Rule) (excluded : List String) : Ending :=
  let options : Analysis.Options :=
    { root := path, workDir := some s.workDir, excluded := excluded, rules := rules
      configPath := origins.config.path?, allowlistPath := origins.allowlist.path? }
  match Analysis.prepare s.tree s.workDir options with
  | .error e => s.fail "Failed to build analyzer" (analysisCauses e)
  | .ok analysis =>
    match (analysis.run s.tree s.workDir {}).2 with
    | .error e => s.fail "Analysis failed" (analysisCauses e)
    | .ok (_, report) => s.stop (if report.hasErrors then 1 else 0) (s.told format report) ""

def codemod (s : Setting) (options : Migration.Options) : Ending :=
  let refuse (e : Migration.Error) := s.stop 1 "" s!"codemod failed: {e.message}\n"
  match Migration.prepare options with
  | .error e => refuse e
  | .ok migration =>
    match migration.runAt s.tree s.workDir with
    | .error e => refuse e
    | .ok (tree, outcomes) => ⟨0, migration.output outcomes, "", tree⟩

/-- What the guard says of its hits. -/
def guardText (hits : List Guard.Hit) : String :=
  "Design lint violations detected:\n\n" ++ String.join (hits.map fun h => h.line ++ "\n") ++
    "\nResolve the violations above or update the guard allow list.\n"

def guard (s : Setting) (path : String) (dirs : List String) : Ending :=
  let hits := Guard.sweep s.tree s.workDir path
    (if dirs.isEmpty then Guard.defaultDirectories else dirs)
  if hits.isEmpty then
    s.stop 0 "Design lint guard passed: no raw hex or arbitrary Tailwind values detected.\n" ""
  else s.stop 1 "" (guardText hits)

/-- A text with blanks behind it up to a width. -/
def padded (n : Nat) (s : String) : String := s ++ Text.row ' ' (n - s.length)

def listRules (s : Setting) : Ending :=
  let ruleLine (code name description : String) :=
    s!"{padded 10 code} {padded 25 name} {description}\n"
  s.stop 0
    ("Available rules:\n\n" ++ ruleLine "Code" "Name" "Description" ++ Text.row '-' 80 ++ "\n" ++
      String.join (Rule.recommended.map fun r => ruleLine r.code r.name r.description) ++
      "\nPresets:\n" ++
      "  recommended  - DL001, DL002 at default severity (default)\n" ++
      "  migration    - DL001 as warning, DL002 as error\n" ++
      "\nCodemods (run in this order):\n" ++
      String.join (Codemod.all.map fun c => s!"  {padded 28 c.name} {c.description}\n") ++
      "\nUse --rules to filter specific rules, e.g.:\n" ++
      "  design-lint check --rules no-raw-colors\n" ++
      "  design-lint codemod --dry --only hex-to-semantic\n") ""

/-- What to do with the starter files. -/
def nextSteps : String :=
  "\nNext steps:\n" ++
  s!"  1. Edit {Starter.configName} and {Starter.allowlistName}\n" ++
  "  2. Run: design-lint check\n" ++
  "  3. Preview migrations: design-lint codemod --dry\n"

/-- Writes files one after the other, and stops at a directory of that name. -/
def writeStarters (s : Setting) (out : String) : List (String × String) → Ending
  | [] => s.stop 0 (out ++ nextSteps) ""
  | (name, text) :: rest =>
    let path := Path.join s.workDir name
    let failure (e : FileError) : Ending :=
      s.stop 1 out (failureText s!"Failed to write {path}" [e.message])
    match s.tree.locate s.workDir with
    | .error e => failure e
    | .ok names =>
      if s.tree.holdsDirectory path then failure .isDirectory
      else
        writeStarters { s with tree := s.tree.put (names ++ [name]) (.file (.text text)) }
          (out ++ s!"Created {name}\n") rest

def init (s : Setting) (force : Bool) : Ending :=
  let paths := Starter.files.map fun (name, _) => Path.join s.workDir name
  match if force then none else paths.find? s.tree.contains with
  | some path => s.fail s!"{path} already exists. Use --force to overwrite." []
  | none => s.writeStarters "" Starter.files

def act (s : Setting) (i : Invocation) : Ending :=
  match i.action with
  | .check path format rules excluded =>
    s.check (.find s.tree s.workDir i.configPath i.allowlistPath) path format rules excluded
  | .codemod dry included excluded only =>
    s.codemod ⟨dry, i.verbose, included, excluded, only⟩
  | .guard path dirs => s.guard path dirs
  | .listRules => s.listRules
  | .init force => s.init force

/-- The paths that a command looks at, as far as the files tell: the working directory, the path
it is given, and where the configuration comes from. -/
def sources (s : Setting) (words : List String) : List String :=
  match Invocation.parse s.environment words with
  | .error _ => []
  | .ok i =>
    let operand := match i.action with
      | .check path .. | .guard path .. => [path]
      | _ => []
    let origins := Config.Origins.find s.tree s.workDir i.configPath i.allowlistPath
    let given := (origins.config.path?.toList ++ origins.allowlist.path?.toList)
    let settings := (origins.config.path?.map fun path =>
      Settings.load s.tree (Path.join s.workDir path)).bind (·.toOption)
    let named := (settings.bind (·.allowlistPath)).toList
    s.workDir :: (operand ++ given ++ named).map (Path.join s.workDir)

/-- Runs the command that some words stand for. -/
def run (s : Setting) (words : List String) : Ending :=
  match Invocation.parse s.environment words with
  | .error .help => s.stop 0 "" ""
  | .error .version => s.stop 0 "design-lint 0.3.0\n" ""
  | .error .misused => s.stop 2 "" ""
  | .ok i => s.act i

end Setting
end TokenLint.Command
