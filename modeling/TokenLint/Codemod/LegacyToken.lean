import TokenLint.Codemod
import TokenLint.Source.Indent

/-!
# Legacy tokens

Accesses to the local object of tokens are replaced by classes where there are such; others go on
through the object, which is renamed and marked where it is declared.
-/
namespace TokenLint.Codemod.LegacyToken
open Source

/-- The name of the object, and the name that it gets. -/
def oldName : String := "designTokens"

def newName : String := "legacyDesignTokens"

/-- Classes by path. -/
def table : List (String × String) :=
  [("colors.text.primary", "text-foreground"), ("colors.text.secondary", "text-muted-foreground"),
   ("colors.text.muted", "text-muted-foreground"), ("colors.logo.container", "bg-surface-muted"),
   ("colors.logo.border", "border-border/60"),
   ("typography.sectionTitle", "text-3xl font-semibold tracking-tight"),
   ("typography.subtitle", "text-base text-muted-foreground"), ("spacing.logo", "h-12"),
   ("spacing.logoContainer", "h-24"),
   ("effects.logoHover", "transition-transform duration-200")]

def isOldName (file : SourceFile) (n : Node) : Bool :=
  n.kind == .identifier && file.nodeText n == oldName

/-- The properties, last one first, of a chain of plain accesses that begins at the object;
`links` bounds the length of the chain. -/
def chain? (file : SourceFile) : Nat → Node → Option (List String)
  | 0, _ => none
  | links + 1, n =>
    if n.kind == .member then do
      let property ← n.child? .property
      let object ← n.child? .object
      if property.kind == .propertyName then
        let inner ← chain? file links object
        return file.nodeText property :: inner
      else none
    else if isOldName file n then some [] else none

/-- The path of an access to the object. -/
def path? (file : SourceFile) (n : Node) : Option String :=
  if n.kind == .member then
    (chain? file n.count n).map fun names => ".".intercalate names.reverse
  else none

/-- Whether the access goes on behind this node. -/
def isInnerLink (v : Visit) : Bool :=
  v.parent.any (·.kind == .member) && v.node.role == .object

def replacement (path : String) : String :=
  match table.lookup path with
  | some classes => s!"\"{classes}\""
  | none => s!"/* TODO(ds-migration): map {path} */ {newName}.{path}"

/-- The edit of an access that is whole. -/
def accessEdit? (file : SourceFile) (v : Visit) : Option Edit :=
  if isInnerLink v then none
  else (path? file v.node).map fun path => ⟨v.node.span, replacement path⟩

/-- A declaration of the object: the statement, the declaration in it, and the name. -/
structure Declaration where
  statement : Node
  declaration : Node
  name : Node

/-- What a statement declares: of an export, what is exported. -/
def declared? (statement : Node) : Option Node :=
  let declaration :=
    if statement.kind == .exportStatement then statement.child? .declaration
    else some statement
  declaration.filter (·.kind == .declaration)

/-- The declarations of the object in a statement. -/
def declarationsIn (file : SourceFile) (statement : Node) : List Declaration :=
  match declared? statement with
  | none => []
  | some declaration =>
    declaration.children.filterMap fun declarator =>
      ((declarator.child? .name).filter (isOldName file)).map (⟨statement, declaration, ·⟩)

/-- The edits of a declaration: a comment before it, no export, and the new name. -/
def retire (file : SourceFile) (d : Declaration) : EditPlan :=
  let start := d.statement.start
  let comment := s!"// TODO(ds-migration): replace {newName} with design-system primitives"
  let exported := d.statement.kind == .exportStatement
  [.insert start s!"{comment}\n{file.indentOf d.statement}"] ++
  (if exported then [.delete ⟨start, d.declaration.start⟩] else []) ++
  [⟨d.name.span, newName⟩]

def plan (file : SourceFile) : EditPlan :=
  file.root.visits.filterMap (accessEdit? file) ++
    (file.root.children.flatMap (declarationsIn file)).flatMap (retire file)

end TokenLint.Codemod.LegacyToken

namespace TokenLint

def Codemod.legacyToken : Codemod :=
  ⟨"remove-local-designTokens",
   "Replace designTokens.* accesses with utility classes and retire the local object",
   Codemod.LegacyToken.plan⟩

end TokenLint
