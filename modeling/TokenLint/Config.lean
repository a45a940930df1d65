import TokenLint.Json.Reader
import TokenLint.Glob.PathMatcher
import TokenLint.Pattern

/-!
# Configuration

A configuration is the defaults with a file's settings over them, and an allowlist of paths and
classes that are exempt. Once built it does not change.
-/
namespace TokenLint

/-- Exempt files, as globs, and exempt classes, as patterns. -/
structure Allowlist where
  paths : List String := []
  classPatterns : List String := []
  deriving DecidableEq, Repr

/-- A key that holds no list counts as empty. -/
def Allowlist.ofValue (v : Json.Value) : Allowlist :=
  ⟨(v.strings? "paths").getD [], (v.strings? "classPatterns").getD []⟩

/-- What a configuration file sets. -/
structure Settings where
  warnLineHeightAndTracking : Option Bool := none
  classMergeHelpers : Option (List String) := none
  allowlistPath : Option String := none
  deriving DecidableEq, Repr

namespace Settings

/-- Anything but `false` turns a flag on. -/
def flagOf : Json.Value → Bool
  | .bool false => false
  | _ => true

def ofValue (v : Json.Value) : Settings :=
  ⟨(v.get? "warnLineHeightAndTracking").map flagOf, v.strings? "classMergeHelpers",
   (v.get? "allowlistPath").bind Json.Value.string?⟩

end Settings

structure Config where
  /-- Whether typography values are only warned of. -/
  warnLineHeightAndTracking : Bool := true
  /-- Functions whose arguments are class strings, each once. -/
  classMergeHelpers : List String := ["clsx", "classnames", "cn"]
  allowlist : Allowlist := {}
  /-- The file that the settings came from, if one was named. -/
  configPath : Option String := none
  allowlistPath : Option String := none
  exemptPaths : PathMatcher := {}
  exemptClasses : List Pattern := []

namespace Config

/-- Why there is no configuration. -/
inductive Error where
  | unreadable (path reason : String)
  | malformed (path reason : String)
  | badAllowlist (path reason : String)
  | badPattern (pattern reason : String)
  deriving DecidableEq, Repr

namespace Error

def message : Error → String
  | unreadable path reason => s!"Failed to read design lint config {path}: {reason}"
  | malformed path reason => s!"Failed to parse design lint config at {path}: {reason}"
  | badAllowlist path reason => s!"Failed to read class allowlist at {path}: {reason}"
  | badPattern pattern reason => s!"Invalid class allowlist pattern '{pattern}': {reason}"

def code : Error → String
  | unreadable .. => "design_lint::config::io"
  | malformed .. => "design_lint::config::parse"
  | badAllowlist .. => "design_lint::config::allowlist"
  | badPattern .. => "design_lint::config::pattern"

def help? : Error → Option String
  | malformed .. => some "Fix the JSON syntax or remove the file to fall back to defaults"
  | _ => none

end Error

def compilePatterns : List String → Except Error (List Pattern)
  | [] => .ok []
  | p :: ps =>
    match Pattern.compile p with
    | .error e => .error (.badPattern p e.message)
    | .ok compiled => (compilePatterns ps).map (compiled :: ·)

/-- Lays settings over the defaults and compiles the allowlist. -/
def merge (s : Settings) (a : Allowlist) : Except Error Config :=
  (compilePatterns a.classPatterns).map fun patterns =>
    let default : Config := {}
    { warnLineHeightAndTracking :=
        s.warnLineHeightAndTracking.getD default.warnLineHeightAndTracking
      classMergeHelpers := Text.distinct (s.classMergeHelpers.getD default.classMergeHelpers)
      allowlist := a
      exemptPaths := .ofPatterns a.paths
      exemptClasses := patterns }

def isFileExempt (c : Config) (relativePath : String) : Bool :=
  c.exemptPaths.contains relativePath

def isClassExempt (c : Config) (className : String) : Bool :=
  c.exemptClasses.any (·.isFound className)

def isMergeHelper (c : Config) (name : String) : Bool := c.classMergeHelpers.contains name

end Config

/-- Reads the text of a configuration file; the path is told in errors. -/
def Settings.parse (path text : String) : Except Config.Error Settings :=
  match Json.parseWithComments text with
  | .error e => .error (.malformed path e.message)
  | .ok v => .ok (.ofValue v)

end TokenLint
