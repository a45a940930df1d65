import TokenLint.Config.Resolver

/-!
# Where a project keeps its configuration

A path that the caller names is taken as it is. Otherwise the first of some names that exists in
the project's directory counts.
-/
namespace TokenLint.Config

inductive Origin where
  | explicit (path : String)
  | project (path : String)
  | default
  deriving DecidableEq, Repr

def Origin.path? : Origin → Option String
  | explicit path => some path
  | project path => some path
  | default => none

/-- Names of configuration files, the preferred one first. -/
def fileNames : List String := ["design-lint.config.json", "eslint-rules.config.json"]

def allowlistNames : List String :=
  [".design-lint-allowlist.json", ".lint-rules-allowlist.json"]

/-- Where one of the files comes from. -/
def discover (tree : FileTree) (projectDir : String) (names : List String) :
    Option String → Origin
  | some path => .explicit path
  | none =>
    ((names.map (Path.join projectDir)).find? tree.contains).elim .default .project

/-- Where the configuration and the allowlist come from. -/
structure Origins where
  config : Origin
  allowlist : Origin
  deriving DecidableEq, Repr

namespace Origins

def find (tree : FileTree) (projectDir : String) (config allowlist : Option String) : Origins :=
  ⟨discover tree projectDir fileNames config, discover tree projectDir allowlistNames allowlist⟩

/-- The request for a configuration from these places. -/
def request (o : Origins) (workDir : String) : Request :=
  ⟨workDir, o.config.path?, o.allowlist.path?⟩

end Origins
end TokenLint.Config
