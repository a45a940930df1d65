import TokenLint.UtilityClass
import TokenLint.Rule
import TokenLint.Rule.Attribute
import TokenLint.Rule.ClassString

/-!
# No arbitrary values

A class with a value in brackets hard-codes what belongs in the design scale. Only class
attributes are looked at. A class repeated within one attribute is reported once.
-/
namespace TokenLint.ArbitraryValueRule
open Source

def code : String := "DL002"

def name : String := "no-arbitrary-values"

def description : String := "Disallow Tailwind arbitrary values in class strings"

/-- Attributes that hold classes. -/
def classAttributes : List String := ["class", "className"]

/-- Why a class is not wanted, if it is not and no pattern exempts it. -/
def kindOf? (config : Config) (className : String) : Option ArbitraryKind :=
  if !UtilityClass.hasArbitraryValue className || config.isClassExempt className then none
  else UtilityClass.classify? className

def message (className : String) : ArbitraryKind → String
  | .color =>
    s!"Avoid Tailwind arbitrary color '{className}'. Use design tokens or CSS variables " ++
    "(e.g., text-fg, bg-accent, hsl(var(--token)))."
  | .dimension =>
    s!"Avoid Tailwind arbitrary size '{className}'. Map to spacing/sizing scale or design tokens."
  | .zIndex =>
    s!"Avoid arbitrary z-index '{className}'. Use semantic layering tokens " ++
    "(e.g., z-overlay, z-modal)."
  | .typography =>
    s!"Avoid arbitrary typography value '{className}'. Use the typography scale or update tokens."

/-- Typography values are only warned of while the configuration says so, except in stories. -/
def severity (config : Config) (context : FileContext) : ArbitraryKind → Severity
  | .typography =>
    if config.warnLineHeightAndTracking && !context.isStory then .warning else .error
  | _ => .error

def isClassAttribute (file : SourceFile) (n : Node) : Bool :=
  n.kind == .jsxAttribute &&
  n.children.head?.any fun label => classAttributes.contains (file.nodeText label)

/-- The class strings of an attribute's value. -/
def classStrings (file : SourceFile) (config : Config) (value : Node) : List String :=
  match value.kind with
  | .string => [file.slice value.content]
  | .jsxExpression =>
    (value.contained?.map (file.classStrings config.classMergeHelpers)).getD []
  | _ => []

/-- The classes of an attribute's value, each once, in the order of first appearance. -/
def classNames (file : SourceFile) (config : Config) (value : Node) : List String :=
  Text.distinct ((classStrings file config value).flatMap Text.words)

/-- The violations of an attribute's value; all are placed at the value. -/
def valueViolations (context : FileContext) (file : SourceFile) (config : Config)
    (value : Node) : List Violation :=
  (classNames file config value).filterMap fun className =>
    (kindOf? config className).map fun kind =>
      { code, rule := name, messageId := kind.messageId, severity := severity config context kind
        location := context.locate file value, message := message className kind }

/-- All violations of a file, attribute by attribute. -/
def check (context : FileContext) (file : SourceFile) (config : Config) : List Violation :=
  if config.isFileExempt context.relativePath then []
  else
    (file.root.descendants.filter (isClassAttribute file)).flatMap fun n =>
      (n.attributeValue?.map (valueViolations context file config)).getD []

end TokenLint.ArbitraryValueRule

namespace TokenLint

/-- Forbids values in brackets. -/
def Rule.arbitraryValue : Rule :=
  ⟨ArbitraryValueRule.code, ArbitraryValueRule.name, ArbitraryValueRule.description, .error,
   ArbitraryValueRule.check⟩

end TokenLint
