import TokenLint.Config
import TokenLint.Source
import TokenLint.Violation

/-!
# Rules

A rule looks at one file under a configuration and returns the violations in the order in which
it finds them.
-/
namespace TokenLint

/-- The file that a rule looks at. -/
structure FileContext where
  /-- As the caller named it. -/
  path : String
  /-- Relative to the directory of the run. -/
  relativePath : String

namespace FileContext

def ofPath (processDir runDir path : String) : FileContext :=
  ⟨path, Path.normalize processDir runDir path⟩

/-- The path that violations tell. -/
def reportPath (f : FileContext) : String :=
  if f.relativePath.isEmpty then f.path else f.relativePath

/-- Whether the file shows a component in the style guide. -/
def isStory (f : FileContext) : Bool :=
  let cs := (Text.lower f.relativePath).toList
  Text.endsWith cs ".stories.tsx".toList || Text.endsWith cs ".stories.mdx".toList

/-- The location of a node. -/
def locate (f : FileContext) (file : SourceFile) (n : Source.Node) : Location :=
  let (line, column) := Text.position file.text.toList n.start
  ⟨f.reportPath, line + 1, column + 1, n.start, n.stop - n.start⟩

end FileContext

structure Rule where
  code : String
  name : String
  description : String
  severity : Severity
  check : FileContext → SourceFile → Config → List Violation

end TokenLint
