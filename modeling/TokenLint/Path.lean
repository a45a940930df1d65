import TokenLint.Text

/-!
# Paths

A path is a text; what matters of it are its components. Empty segments never count, and a `.`
counts only at the front of a relative path.
-/
namespace TokenLint.Path

inductive Component where
  | root
  | current
  | parent
  | normal (name : String)
  deriving DecidableEq, Repr

def isAbsolute (path : String) : Bool := path.toList.head? == some '/'

/-- What stands between slashes, empty segments left out. -/
def segments (cs : List Char) : List (List Char) :=
  (Text.splitOn '/' cs).filter (!·.isEmpty)

/-- The component of a segment behind the first; a `.` there is none. -/
def component? (segment : List Char) : Option Component :=
  if segment == ['.'] then none
  else if segment == ['.', '.'] then some .parent
  else some (.normal (String.ofList segment))

/-- What a path begins with besides its segments. -/
def front : List Char → List Component
  | '/' :: _ => [.root]
  | ['.'] => [.current]
  | '.' :: '/' :: _ => [.current]
  | _ => []

def componentsOf (cs : List Char) : List Component :=
  front cs ++ (segments cs).filterMap component?

def components (path : String) : List Component := componentsOf path.toList

/-- A path as it is seen from a directory: an absolute one stays itself. -/
def join (base path : String) : String :=
  if isAbsolute path then path
  else if base.isEmpty || base.toList.getLast? == some '/' then base ++ path
  else base ++ "/" ++ path

/-- The components behind those of a directory. -/
def stripPrefix? : List Component → List Component → Option (List Component)
  | [], path => some path
  | b :: base, c :: path => if b == c then stripPrefix? base path else none
  | _ :: _, [] => none

def Component.name? : Component → Option String
  | normal name => some name
  | _ => none

/-- The names among components, joined by slashes. -/
def slashed (cs : List Component) : String := "/".intercalate (cs.filterMap Component.name?)

/-- A path without its root, and without steps to the same or the parent directory. -/
def toSlash (path : String) : String := slashed (components path)

/-- A path relative to the first of some directories that it lies in; a path in none of them is
only freed of its root. -/
def relativeTo : List String → String → String
  | [], path => toSlash path
  | base :: bases, path =>
    match stripPrefix? (components base) (components path) with
    | some rest => slashed rest
    | none => relativeTo bases path

/-- The spelling of a file's path that is compared and reported: relative to the directory that
the program runs in, where that is known, or else to the directory of the run. -/
def normalizeWith (processDir? : Option String) (runDir path : String) : String :=
  if path.isEmpty then ""
  else if isAbsolute path then relativeTo (processDir?.toList ++ [runDir]) path
  else toSlash path

def normalize (processDir runDir path : String) : String :=
  normalizeWith (some processDir) runDir path

/-- The place of a kind of component in the order of components. -/
def Component.rank : Component → Nat
  | root => 0
  | current => 1
  | parent => 2
  | normal _ => 3

def Component.compare : Component → Component → Ordering
  | normal a, normal b => Ord.compare a b
  | a, b => Ord.compare a.rank b.rank

/-- Paths are ordered component by component. -/
def compareComponents : List Component → List Component → Ordering
  | [], [] => .eq
  | [], _ :: _ => .lt
  | _ :: _, [] => .gt
  | a :: as, b :: bs => (a.compare b).then (compareComponents as bs)

def compare (a b : String) : Ordering := compareComponents (components a) (components b)

/-- A path read backward, without slashes and steps to the same directory where it begins. -/
def withoutEnd : List Char → List Char
  | '/' :: c :: cs => withoutEnd (c :: cs)
  | '.' :: '/' :: cs => if cs.isEmpty then ['/'] else withoutEnd cs
  | cs => cs

/-- The path of the directory that a path lies in. -/
def parent (path : String) : String :=
  String.ofList (withoutEnd ((withoutEnd path.toList.reverse).dropWhile (· != '/'))).reverse

/-- What follows the last dot of a name; a dot at the front begins no extension. -/
def extensionOf? (name : String) : Option String :=
  let cs := name.toList
  let last := (cs.reverse.takeWhile (· != '.')).reverse
  if last.length + 1 < cs.length && cs != ['.', '.'] then some (String.ofList last) else none

end TokenLint.Path
