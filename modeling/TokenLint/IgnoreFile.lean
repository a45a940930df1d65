import TokenLint.FileTree
import TokenLint.Glob.Match

/-!
# Files that tell what to ignore

Each line of such a file is a rule for the entries below a directory, and the last rule that fits
decides. Of several directories the nearest one decides, and of several kinds of files the first
one that decides anything.
-/
namespace TokenLint

structure IgnoreRule where
  glob : Glob
  /-- Whether what fits is kept. -/
  isException : Bool
  onlyDirectories : Bool

namespace IgnoreRule

def isComment (line : List Char) : Bool := line.head? == some '#'

/-- A line without the blanks at its end, unless the last one is escaped. -/
def trimmed (line : List Char) : List Char :=
  if Text.endsWith line ['\\', ' '] then line else Text.dropEndWhile Text.isBlank line

/-- What the marks around a rule's glob say, and the glob. -/
structure Marks where
  isException : Bool := false
  /-- Whether the glob is for paths from the directory itself. -/
  isAnchored : Bool := false
  onlyDirectories : Bool := false
  glob : List Char

/-- Reads what stands before the glob. -/
def leadingMarks : List Char → Marks
  | '\\' :: '!' :: cs => { glob := '!' :: cs }
  | '\\' :: '#' :: cs => { glob := '#' :: cs }
  | '!' :: '/' :: cs => { isException := true, isAnchored := true, glob := cs }
  | '!' :: cs => { isException := true, glob := cs }
  | '/' :: cs => { isAnchored := true, glob := cs }
  | cs => { glob := cs }

/-- Reads what stands behind the glob: a slash, perhaps escaped. -/
def trailingMarks (m : Marks) : Marks :=
  match m.glob.reverse with
  | '/' :: '\\' :: cs => { m with onlyDirectories := true, glob := cs.reverse }
  | '/' :: cs => { m with onlyDirectories := true, glob := cs.reverse }
  | _ => m

/-- The glob for whole paths. A glob without a slash fits at any depth, and what is below a
directory does not include the directory. -/
def pathGlob (m : Marks) : List Char :=
  let anywhere :=
    if m.isAnchored || m.glob.contains '/' || m.glob == ['*', '*'] then m.glob
    else ['*', '*', '/'] ++ m.glob
  if Text.endsWith anywhere ['/', '*', '*'] then anywhere ++ ['/', '*'] else anywhere

/-- The rule of a line, if it has one. -/
def ofLine (line : List Char) : Except Glob.Error (Option IgnoreRule) :=
  let text := trimmed line
  if isComment line || text.isEmpty then .ok none
  else
    let marks := trailingMarks (leadingMarks text)
    match Glob.compileLenient (String.ofList (pathGlob marks)) with
    | .error e => .error ⟨String.ofList text, e.fault⟩
    | .ok glob => .ok (some ⟨glob, marks.isException, marks.onlyDirectories⟩)

/-- Whether a rule fits an entry. -/
def fits (r : IgnoreRule) (names : List String) (isDirectory : Bool) : Bool :=
  (!r.onlyDirectories || isDirectory) && r.glob.accepts (slashPath names)

end IgnoreRule

/-- Where the rules for a directory stand. Earlier places win over later ones. -/
inductive IgnorePlace where
  | ignoreFile
  | gitIgnore
  | gitExclude
  deriving DecidableEq, Repr

namespace IgnorePlace

def all : List IgnorePlace := [.ignoreFile, .gitIgnore, .gitExclude]

/-- The names that lead from the directory to the file. -/
def names : IgnorePlace → List String
  | ignoreFile => [".ignore"]
  | gitIgnore => [".gitignore"]
  | gitExclude => [".git", "info", "exclude"]

end IgnorePlace

/-- The rules for a directory from one place. -/
structure IgnoreFile where
  place : IgnorePlace
  directory : List String
  rules : List IgnoreRule
  /-- What is wrong with the file. -/
  faults : List String

namespace IgnoreFile

/-- Pieces of bytes between line feeds, without a carriage return at the end. -/
def byteLines (bytes : List UInt8) : List (List UInt8) :=
  (go bytes).map fun line => if line.getLast? == some 13 then line.dropLast else line
where
  go : List UInt8 → List (List UInt8)
  | [] => [[]]
  | b :: bs =>
    match go bs with
    | [] => [[b]]
    | line :: lines => if b == 10 then [] :: line :: lines else (b :: line) :: lines

/-- The lines of a file, with nothing for a line that is no text. -/
def linesOf : Content → List (Option (List Char))
  | .text s => (Text.lines s.toList).map some
  | .binary bytes => (byteLines bytes).map fun line => (Text.Utf8.decode? line).map String.toList

/-- Rules and faults of the lines from a number on. Nothing is read behind a line that is no
text. -/
def readLines : Nat → List (Option (List Char)) → List IgnoreRule × List (Nat × String)
  | _, [] => ([], [])
  | number, none :: _ => ([], [(number, FileError.notText.message)])
  | number, some line :: lines =>
    let (rules, faults) := readLines (number + 1) lines
    match IgnoreRule.ofLine line with
    | .error e => (rules, (number, e.message) :: faults)
    | .ok none => (rules, faults)
    | .ok (some rule) => (rule :: rules, faults)

/-- A byte order mark counts for nothing. -/
def withoutMark : List (Option (List Char)) → List (Option (List Char))
  | some line :: lines => some (line.dropWhile (· == '\uFEFF')) :: lines
  | lines => lines

/-- Reads a file for a directory. That the file is no text is a fault only beside others. -/
def read (place : IgnorePlace) (directory : List String) (content : Content) : IgnoreFile :=
  let (rules, faults) := readLines 1 (withoutMark (linesOf content))
  let path := "/" ++ slashPath (directory ++ place.names)
  let told := if faults.map (·.2) == [FileError.notText.message] then [] else faults
  ⟨place, directory, rules, told.map fun (number, reason) => s!"{path}: line {number}: {reason}"⟩

/-- The file for a directory in a tree. -/
def at? (tree : FileTree) (directory : List String) (place : IgnorePlace) : Option IgnoreFile :=
  match tree.get? (directory ++ place.names) with
  | some (.file content) => some (read place directory content)
  | _ => none

/-- What a file says about an entry below its directory: whether it is ignored. -/
def verdict? (f : IgnoreFile) (names : List String) (isDirectory : Bool) : Option Bool :=
  let below := names.drop f.directory.length
  (f.rules.reverse.find? (·.fits below isDirectory)).map (!·.isException)

/-- All files of a tree that tell what to ignore. -/
def all (tree : FileTree) : List IgnoreFile :=
  tree.files.flatMap fun (names, content) =>
    IgnorePlace.all.filterMap fun place =>
      if place.names.isSuffixOf names then
        some (read place (names.take (names.length - place.names.length)) content)
      else none

/-- The directories that an entry lies in, the nearest first. -/
def ancestors (names : List String) : List (List String) :=
  (List.range names.length).reverse.map names.take

/-- What the files from one place say about an entry. -/
def verdictFrom? (files : List IgnoreFile) (place : IgnorePlace) (names : List String)
    (isDirectory : Bool) : Option Bool :=
  (ancestors names).findSome? fun directory =>
    (files.find? fun f => f.place == place && f.directory == directory).bind
      fun f => f.verdict? names isDirectory

/-- Whether an entry is ignored. -/
def ignores (files : List IgnoreFile) (names : List String) (isDirectory : Bool) : Bool :=
  (IgnorePlace.all.findSome? fun place => verdictFrom? files place names isDirectory).getD false

end IgnoreFile
end TokenLint
