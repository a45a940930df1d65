import TokenLint.Command.Run

/-!
# The program

Files are read before a command runs, and those that it has changed are written after it.
-/
namespace TokenLint.Program

/-- Reads a file. -/
def readContent (path : String) : IO Content := do
  let bytes ← IO.FS.readBinFile path
  return (String.fromUTF8? bytes).elim (.binary bytes.toList) .text

/-- Reads a file if there is one. -/
def readIfPresent (path : String) : IO (Option Content) := do
  try return some (← readContent path) catch _ => return none

/-- Reads a directory or a file. Of ignored directories in it only what tells what to ignore is
read, and links are passed over. -/
partial def readTree (path : String) : IO FileTree := do
  let place := (← IO.currentDir) / path
  if !(← place.isDir) then return .file (← readContent path)
  let mut tree := FileTree.empty
  for entry in ← place.readDir do
    let below := Path.join path entry.fileName
    match (← entry.path.symlinkMetadata).type with
    | .dir =>
      let child ←
        if ignoredDirectories.contains entry.fileName then pure .empty else readTree below
      tree := tree.put [entry.fileName] child
    | .file => tree := tree.put [entry.fileName] (.file (← readContent below))
    | _ => pure ()
  if let some content ← readIfPresent (Path.join path (slashPath IgnorePlace.gitExclude.names)) then
    tree := tree.put IgnorePlace.gitExclude.names (.file content)
  return tree

/-- Adds what tells what to ignore in the directories above. -/
def addAbove (tree : FileTree) (names : List String) : IO FileTree := do
  let mut tree := tree
  for directory in IgnoreFile.ancestors names do
    for place in IgnorePlace.all do
      let file := directory ++ place.names
      if (tree.get? file).isNone then
        if let some content ← readIfPresent ("/" ++ slashPath file) then
          tree := tree.put file (.file content)
  return tree

/-- Adds what a path leads to, unless it is there. -/
def add (tree : FileTree) (path : String) : IO FileTree := do
  if tree.contains path then return tree
  try
    let real := (← IO.FS.realPath path).toString
    let names := (Path.components real).filterMap (·.name?)
    addAbove (tree.put names (← readTree real)) names
  catch _ => return tree

/-- The variables of the environment that commands look at. -/
def environment : IO (List (String × String)) := do
  let mut found := []
  for (_, name) in Command.environmentNames do
    if let some value ← IO.getEnv name then found := (name, value) :: found
  return found

end TokenLint.Program

open TokenLint in
def main (words : List String) : IO UInt32 := do
  let workDir := (← IO.currentDir).toString
  let environment ← Program.environment
  let mut tree := FileTree.empty
  for _ in [0, 1] do
    for path in Command.Setting.sources ⟨tree, workDir, environment⟩ words do
      tree ← Program.add tree path
  let ending := Command.Setting.run ⟨tree, workDir, environment⟩ words
  for (names, content) in tree.changes ending.tree do
    if let .text s := content then IO.FS.writeFile ("/" ++ slashPath names) s
  IO.print ending.out
  IO.eprint ending.err
  return ending.code.toUInt32
