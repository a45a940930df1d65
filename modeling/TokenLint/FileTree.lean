import TokenLint.Path
import TokenLint.Text.Utf8

/-!
# Files and directories

A tree of named files and directories, in which a path is followed name by name. The entries of a
directory are in the order of their names.
-/
namespace TokenLint

/-- What a file holds. -/
inductive Content where
  | text (s : String)
  /-- Bytes that encode no text. -/
  | binary (bytes : List UInt8)
  deriving DecidableEq, Repr

def Content.ofBytes (bytes : List UInt8) : Content :=
  (Text.Utf8.decode? bytes).elim (.binary bytes) .text

/-- The text of a file, with replacement characters where the bytes encode none. -/
def Content.readable : Content → String
  | text s => s
  | binary bytes => Text.Utf8.decodeLossy bytes

/-- Why a file cannot be used. -/
inductive FileError where
  | notFound
  | notDirectory
  | isDirectory
  | notText
  deriving DecidableEq, Repr

def FileError.message : FileError → String
  | notFound => "No such file or directory (os error 2)"
  | notDirectory => "Not a directory (os error 20)"
  | isDirectory => "Is a directory (os error 21)"
  | notText => "stream did not contain valid UTF-8"

inductive FileTree where
  | file (content : Content)
  | directory (entries : List (String × FileTree))

namespace FileTree

def empty : FileTree := .directory []

def isDirectory : FileTree → Bool
  | file _ => false
  | directory _ => true

def entries : FileTree → List (String × FileTree)
  | file _ => []
  | directory es => es

/-- What names lead to. -/
def get? : FileTree → List String → Option FileTree
  | t, [] => some t
  | t, n :: ns => (t.entries.lookup n).bind fun child => child.get? ns

/-- Puts an entry into its place among others. -/
def setEntry (name : String) (t : FileTree) :
    List (String × FileTree) → List (String × FileTree)
  | [] => [(name, t)]
  | (n, u) :: es =>
    if name == n then (n, t) :: es
    else if name < n then (name, t) :: (n, u) :: es
    else (n, u) :: setEntry name t es

/-- Puts a tree where names lead, with the directories on the way there. -/
def put : FileTree → List String → FileTree → FileTree
  | _, [], new => new
  | t, n :: ns, new =>
    .directory (setEntry n (put ((t.entries.lookup n).getD empty) ns new) t.entries)

/-- Takes away what names lead to. -/
def remove : FileTree → List String → FileTree
  | t, [] => t
  | t, [n] => .directory (t.entries.filter (·.1 != n))
  | t, n :: ns =>
    match t.entries.lookup n with
    | none => t
    | some child => .directory (setEntry n (child.remove ns) t.entries)

/-- The names that lead to where a path does. Each step but a name needs a directory to start
from, and a step to the parent directory is taken from where the path has led so far. -/
def follow (t : FileTree) : List String → List (List Char) → Except FileError (List String)
  | trail, [] => .ok trail.reverse
  | trail, step :: steps =>
    match t.get? trail.reverse with
    | some (.directory es) =>
      if step.isEmpty || step == ['.'] then follow t trail steps
      else if step == ['.', '.'] then follow t trail.tail steps
      else
        let name := String.ofList step
        match es.lookup name with
        | none => .error .notFound
        | some _ => follow t (name :: trail) steps
    | _ => .error .notDirectory

/-- The names that an absolute path leads along. -/
def locate (t : FileTree) (path : String) : Except FileError (List String) :=
  t.follow [] (Text.splitOn '/' path.toList)

/-- What a path leads to. -/
def find (t : FileTree) (path : String) : Except FileError FileTree :=
  match t.locate path with
  | .error e => .error e
  | .ok names => (t.get? names).elim (.error .notFound) .ok

def contains (t : FileTree) (path : String) : Bool := (t.find path).isOk

def holdsFile (t : FileTree) (path : String) : Bool :=
  match t.find path with
  | .ok (.file _) => true
  | _ => false

def holdsDirectory (t : FileTree) (path : String) : Bool :=
  match t.find path with
  | .ok (.directory _) => true
  | _ => false

/-- The text of a tree that is a file. -/
def text : FileTree → Except FileError String
  | file (.text s) => .ok s
  | file (.binary _) => .error .notText
  | directory _ => .error .isDirectory

/-- The text of the file that a path leads to. -/
def read (t : FileTree) (path : String) : Except FileError String :=
  match t.find path with
  | .error e => .error e
  | .ok found => found.text

mutual
/-- The files of a tree: the names that lead to each, and what it holds. -/
def files : FileTree → List (List String × Content)
  | .file c => [([], c)]
  | .directory es => filesOf es

def filesOf : List (String × FileTree) → List (List String × Content)
  | [] => []
  | (n, t) :: es => t.files.map (fun (ns, c) => (n :: ns, c)) ++ filesOf es
end

mutual
/-- The names that lead to each file of a tree, entered only where `enter` says so. It is asked of
each entry, with the names that lead there and whether it is a directory. -/
def walk (enter : List String → Bool → Bool) (trail : List String) : FileTree → List (List String)
  | .file _ => [trail]
  | .directory es => walkEntries enter trail es

def walkEntries (enter : List String → Bool → Bool) (trail : List String) :
    List (String × FileTree) → List (List String)
  | [] => []
  | (n, t) :: es =>
    (if enter (trail ++ [n]) t.isDirectory then walk enter (trail ++ [n]) t else []) ++
      walkEntries enter trail es
end

/-- The files of a tree that another one does not hold in the same state. -/
def changes (before after : FileTree) : List (List String × Content) :=
  after.files.filter fun (names, content) =>
    match before.get? names with
    | some (.file c) => c != content
    | _ => true

end FileTree

/-- Directories that no walk enters. -/
def ignoredDirectories : List String :=
  ["node_modules", ".next", ".git", "storybook-static", "dist", "build", "coverage"]

/-- Names that lead to a file, as a path. -/
def slashPath (names : List String) : String := "/".intercalate names

end TokenLint
