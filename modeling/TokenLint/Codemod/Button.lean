import TokenLint.Codemod
import TokenLint.Element
import TokenLint.NamedImport

/-!
# Buttons

A button that is styled by hand becomes the button component, with variants for the groups of
classes that it had.
-/
namespace TokenLint.Codemod.Button

def module : String := "@/components/ui/button"

def accentClasses : List String :=
  ["bg-gradient-to-r", "from-blue-600", "to-cyan-600", "hover:from-blue-700",
   "hover:to-cyan-700"]

/-- Classes that the accent tone makes needless. -/
def accentExtras : List String := ["text-white", "shadow-md", "hover:shadow-lg"]

def neutralClasses : List String := ["bg-gray-900", "hover:bg-gray-800", "text-white"]

/-- Classes that a size makes needless. -/
def spacingClasses : List String :=
  ["px-6", "py-3", "px-5", "py-2", "py-2.5", "h-12", "rounded-lg", "rounded-2xl",
   "transition-all", "duration-200"]

inductive Tone where
  | accent
  | neutral
  deriving DecidableEq, Repr

namespace Tone

def name : Tone → String
  | accent => "accent"
  | neutral => "neutral"

def consumed : Tone → List String
  | accent => accentClasses ++ accentExtras
  | neutral => neutralClasses

/-- The tone whose whole group of classes occurs. -/
def ofClasses? (has : String → Bool) : Option Tone :=
  if accentClasses.all has then some accent
  else if neutralClasses.all has then some neutral
  else none

end Tone

/-- The size that the height or the padding stands for. -/
def sizeOf? (has : String → Bool) : Option String :=
  if has "py-3" || has "h-12" then some "lg"
  else if has "py-2.5" || has "py-2" then some "md"
  else none

/-- What a button's classes say. -/
structure Shape where
  tone : Option Tone
  size : Option String
  fullWidth : Bool
  deriving DecidableEq, Repr

namespace Shape

def ofClasses? (has : String → Bool) : Option Shape :=
  let s : Shape := ⟨Tone.ofClasses? has, sizeOf? has, has "w-full"⟩
  if s.tone.isSome || s.size.isSome || s.fullWidth then some s else none

/-- The classes that the variants stand for. -/
def consumed (s : Shape) : List String :=
  (s.tone.map Tone.consumed).getD [] ++ (if s.size.isSome then spacingClasses else []) ++
  (if s.fullWidth then ["w-full"] else [])

def props (s : Shape) : List String :=
  (s.tone.map fun t => ["variant=\"solid\"", s!"tone=\"{t.name}\""]).getD [] ++
  (s.size.map fun size => [s!"size=\"{size}\""]).getD [] ++
  (if s.fullWidth then ["fullWidth"] else [])

end Shape

def match? (file : SourceFile) (e : Element) : Option (Shape × ClassList) :=
  if e.tagName file != "button" then none
  else do
    let classes ← e.classList? file
    let shape ← Shape.ofClasses? classes.has
    return (shape, classes)

/-- The attributes that a new button gets: without a type it had that of a button. -/
def props (file : SourceFile) (e : Element) (s : Shape) : List String :=
  s.props ++ (if e.hasAttribute file "type" then [] else ["type=\"button\""])

def convert (file : SourceFile) (e : Element) (s : Shape) (classes : ClassList) : EditPlan :=
  classes.retain (fun c => !s.consumed.contains c) :: e.rename "Button" ++
    e.addProps (props file e s)

def plan (file : SourceFile) : EditPlan :=
  let found := (Element.all file).filterMap fun e => (match? file e).map (e, ·)
  if found.isEmpty then []
  else
    found.flatMap (fun (e, s, classes) => convert file e s classes) ++
      NamedImport.ensure file module ["Button"]

end TokenLint.Codemod.Button

namespace TokenLint

def Codemod.button : Codemod :=
  ⟨"button-to-ds-variants",
   "Turn gradient/neutral <button> styling into <Button variant tone size fullWidth>",
   Codemod.Button.plan⟩

end TokenLint
