import TokenLint.Color
import TokenLint.Rule
import TokenLint.Rule.Attribute
import TokenLint.Source.Literal

/-!
# No raw colors

A raw color in the code bypasses the design tokens, so a change of theme never reaches it. Every
string and every static part of a template is looked at, by the text that it stands for, and is
reported once.
-/
namespace TokenLint.RawColorRule
open Source

def code : String := "DL001"

def name : String := "no-raw-colors"

def description : String := "Disallow raw color literals in application code"

/-- A literal to look at: a string or template, and the range of its static text. -/
structure Candidate where
  node : Node
  content : Span

/-- The static texts of an expression that is a literal, in parentheses or not. -/
def literals (n : Node) : List Candidate :=
  match n.bare.kind with
  | .string => [⟨n.bare, n.bare.content⟩]
  | .template => n.bare.quasis.map (⟨n.bare, ·⟩)
  | _ => []

/-- Literals that are a value: of a container, what it contains. -/
def valueLiterals (n : Node) : List Candidate :=
  if n.kind == .jsxExpression then (n.contained?.map literals).getD [] else literals n

/-- The text of a key that is a plain name or a string. -/
def keyText (file : SourceFile) (key : Node) : String :=
  match key.kind with
  | .string => Literal.decode (file.slice key.content)
  | .propertyName => Literal.decode (file.nodeText key)
  | _ => ""

/-- Whether a key speaks of a color. -/
def isColorKey (file : SourceFile) (key : Node) : Bool :=
  Text.contains (Text.lower (keyText file key)).toList "color".toList

/-- The literals that the visit of a node looks at; a literal can be met on several visits. -/
def candidates (file : SourceFile) (n : Node) : List Candidate :=
  let literalsOf (role : Role) := ((n.child? role).map literals).getD []
  match n.kind with
  | .string | .template => literals n
  | .jsxAttribute => (n.attributeValue?.map valueLiterals).getD []
  | .jsxExpression => (n.contained?.map valueLiterals).getD []
  | .pair => if (n.child? .key).any (isColorKey file) then literalsOf .value else []
  | .declarator => literalsOf .value
  | .assignment => literalsOf .right
  | .call | .construction =>
    ((n.child? .arguments).map fun args => args.children.flatMap literals).getD []
  | _ => []

/-- The message and the advice for a color. -/
def messageId : RawColor → String
  | .hsl _ => "useHslVar"
  | .hex _ | .rgb _ => "useTokens"

def message : RawColor → String
  | .hsl literal =>
    s!"Wrap HSL colors with CSS variables: replace '{literal}' with hsl(var(--token-name))."
  | .hex literal | .rgb literal =>
    s!"Avoid raw color literal '{literal}'. Use design tokens or Tailwind utilities " ++
    "(e.g., text-fg, bg-accent, var(--token))."

def advice : RawColor → String
  | .hsl _ => "Define the color as a CSS variable and reference it with hsl(var(--token))"
  | .hex _ | .rgb _ =>
    "Replace the literal with a semantic token utility such as text-fg or bg-accent"

/-- The violation that a candidate is, if it is a raw color. It is placed at the start of its
literal, but has the range of its static text where that is part of a template. -/
def violation? (severity : Severity) (context : FileContext) (file : SourceFile)
    (c : Candidate) : Option Violation :=
  (RawColor.classify? (Literal.decode (file.slice c.content))).map fun color =>
    let place := context.locate file c.node
    let place :=
      if c.node.kind == .template then
        { place with offset := c.content.start, length := c.content.stop - c.content.start }
      else place
    { code, rule := name, messageId := messageId color, severity, location := place
      message := message color, suggestion := some (advice color) }

/-- Ranges that were reported, each of them once. -/
structure Reported where
  spans : List Span := []
  nodup : spans.Nodup := by exact List.nodup_nil

def Reported.contains (reported : Reported) (span : Span) : Bool := reported.spans.contains span

/-- The ranges with one more, if it is not among them. -/
def Reported.insert? (reported : Reported) (span : Span) : Option Reported :=
  if h : reported.contains span then none
  else some ⟨span :: reported.spans,
    List.nodup_cons.mpr ⟨fun hmem => h (List.contains_iff_mem.mpr hmem), reported.nodup⟩⟩

/-- The violations of candidates whose ranges were not reported before. -/
def report (violation? : Candidate → Option Violation) :
    Reported → List Candidate → List Violation
  | _, [] => []
  | reported, c :: cs =>
    match violation? c with
    | none => report violation? reported cs
    | some v =>
      match reported.insert? c.content with
      | none => report violation? reported cs
      | some reported => v :: report violation? reported cs

/-- All violations of a file, in the order in which the literals are first met. -/
def check (severity : Severity) (context : FileContext) (file : SourceFile) (config : Config) :
    List Violation :=
  if config.isFileExempt context.relativePath then []
  else
    report (violation? severity context file) {} (file.root.descendants.flatMap (candidates file))

end TokenLint.RawColorRule

namespace TokenLint

/-- Forbids raw colors. -/
def Rule.rawColor (severity : Severity) : Rule :=
  ⟨RawColorRule.code, RawColorRule.name, RawColorRule.description, severity,
   RawColorRule.check severity⟩

end TokenLint
