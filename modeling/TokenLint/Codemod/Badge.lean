import TokenLint.Codemod
import TokenLint.Element
import TokenLint.NamedImport

/-!
# Badges

A round label with padding at its sides becomes the badge component, in the tone of its
background.
-/
namespace TokenLint.Codemod.Badge

def module : String := "@/components/ui/badge"

def tags : List String := ["div", "span"]

/-- Backgrounds by tone; the first tone with a background that occurs decides. -/
def tones : List (List String × String) :=
  [(["bg-green", "bg-emerald", "bg-success"], "success"),
   (["bg-yellow", "bg-amber", "bg-warning"], "warning"),
   (["bg-red", "bg-rose", "bg-destructive", "bg-error"], "danger"),
   (["bg-blue", "bg-cyan", "bg-accent"], "accent"),
   (["bg-gray", "bg-slate", "bg-neutral"], "neutral")]

/-- What classes begin with that a badge makes needless. -/
def consumedStarts : List String :=
  ["bg-", "text-", "shadow", "hover:", "px-", "py-", "uppercase", "tracking-", "font-bold",
   "font-semibold"]

def begins (start className : String) : Bool := Text.startsWith className.toList start.toList

def isConsumed (className : String) : Bool :=
  className == "rounded-full" || consumedStarts.any (begins · className)

/-- The tone of some classes, wherever in the text that they make the background stands. -/
def toneOf? (classes : List String) : Option String :=
  let joined := " ".intercalate classes
  (tones.find? fun (backgrounds, _) =>
    backgrounds.any fun b => Text.contains joined.toList b.toList).map (·.2)

def isBadge (c : ClassList) : Bool := c.has "rounded-full" && c.classes.any (begins "px-")

def match? (file : SourceFile) (e : Element) : Option ClassList :=
  if tags.contains (e.tagName file) then (e.classList? file).filter isBadge else none

def props (tone : Option String) : List String :=
  (tone.map fun t => s!"tone=\"{t}\"").toList ++ ["variant=\"soft\""]

def convert (e : Element) (classes : ClassList) : EditPlan :=
  classes.retain (fun c => !isConsumed c) :: e.rename "Badge" ++
    e.addProps (props (toneOf? classes.classes))

def plan (file : SourceFile) : EditPlan :=
  let found := (Element.all file).filterMap fun e => (match? file e).map (e, ·)
  if found.isEmpty then []
  else
    found.flatMap (fun (e, classes) => convert e classes) ++
      NamedImport.ensure file module ["Badge"]

end TokenLint.Codemod.Badge

namespace TokenLint

def Codemod.badge : Codemod :=
  ⟨"badge-and-status", "Turn rounded-full status pills into <Badge tone variant=\"soft\">",
   Codemod.Badge.plan⟩

end TokenLint
