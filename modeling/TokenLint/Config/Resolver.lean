import TokenLint.Config
import TokenLint.FileTree

/-!
# Configurations from files

A file that does not exist sets nothing. What was resolved once for a working directory and two
paths stays resolved, however the files change; what failed is tried again.
-/
namespace TokenLint

/-- The settings in a configuration file. -/
def Settings.load (tree : FileTree) (path : String) : Except Config.Error Settings :=
  if tree.contains path then
    match tree.read path with
    | .error e => .error (.unreadable path e.message)
    | .ok text => Settings.parse path text
  else .ok {}

/-- The allowlist in a file. -/
def Allowlist.load (tree : FileTree) (path : String) : Except Config.Error Allowlist :=
  if tree.contains path then
    match tree.read path with
    | .error e => .error (.badAllowlist path e.message)
    | .ok text =>
      match Json.parseWithComments text with
      | .error e => .error (.badAllowlist path e.message)
      | .ok v => .ok (.ofValue v)
  else .ok {}

namespace Config

/-- The files that a configuration is asked from, as seen from a working directory. -/
structure Request where
  workDir : String
  configPath : Option String := none
  allowlistPath : Option String := none

namespace Request

def joined (r : Request) (path : Option String) : Option String :=
  path.map (Path.join r.workDir)

/-- Reads the configuration. An allowlist that was not asked for is the one that the settings
name. -/
def load (r : Request) (tree : FileTree) : Except Error Config :=
  let configPath := r.joined r.configPath
  match configPath.elim (.ok {}) (Settings.load tree) with
  | .error e => .error e
  | .ok settings =>
    let allowlistPath := (r.joined r.allowlistPath).or (r.joined settings.allowlistPath)
    match allowlistPath.elim (.ok {}) (Allowlist.load tree) with
    | .error e => .error e
    | .ok allowlist =>
      (Config.merge settings allowlist).map fun config =>
        { config with configPath := configPath, allowlistPath := allowlistPath }

end Request

/-- What makes two requests the same: the components of all their paths. -/
structure Key where
  workDir : List Path.Component
  configPath : Option (List Path.Component)
  allowlistPath : Option (List Path.Component)
  deriving DecidableEq, Repr

def Request.key (r : Request) : Key :=
  ⟨Path.components r.workDir, (r.joined r.configPath).map Path.components,
   (r.joined r.allowlistPath).map Path.components⟩

/-- A configuration and its number among those that a resolver has read. -/
structure Resolved where
  number : Nat
  config : Config

/-- The configurations read so far, in order, each with the key of its request. -/
structure Resolver where
  entries : List (Key × Config) := []

namespace Resolver

/-- Looks for a key among entries that are numbered from some number on. -/
def search (key : Key) : Nat → List (Key × Config) → Option Resolved
  | _, [] => none
  | number, (k, config) :: entries =>
    if k == key then some ⟨number, config⟩ else search key (number + 1) entries

def get? (r : Resolver) (key : Key) : Option Resolved := search key 0 r.entries

/-- How many configurations have been read. -/
def size (r : Resolver) : Nat := r.entries.length

/-- The configuration for a request, which is read from the files unless it was before. -/
def resolve (r : Resolver) (tree : FileTree) (request : Request) :
    Resolver × Except Error Resolved :=
  match r.get? request.key with
  | some found => (r, .ok found)
  | none =>
    match request.load tree with
    | .error e => (r, .error e)
    | .ok config => (⟨r.entries ++ [(request.key, config)]⟩, .ok ⟨r.size, config⟩)

end Resolver
end Config
end TokenLint
