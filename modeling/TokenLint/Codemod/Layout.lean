import TokenLint.Codemod
import TokenLint.Element
import TokenLint.NamedImport
import TokenLint.Source.Indent

/-!
# Layout wrappers

An element with the classes of a centered container, or of a padded section, is wrapped in the
component that stands for them and loses these classes.
-/
namespace TokenLint.Codemod.Layout

/-- Where the components come from. -/
def module : String := "@/components/patterns"

def containerClasses : List String := ["max-w-7xl", "mx-auto"]

/-- Classes that a container makes needless. -/
def gutterClasses : List String := ["px-4", "sm:px-6", "lg:px-8"]

/-- The classes of a section by size; the first that all occur decide. -/
def sectionClasses : List (List String × String) :=
  [(["py-12", "md:py-16"], "md"), (["py-16", "md:py-20"], "lg"), (["py-20", "lg:py-24"], "xl"),
   (["py-8"], "sm")]

/-- The component around an element. -/
inductive Wrapper where
  | container
  | section (classes : List String) (size : String)
  deriving DecidableEq, Repr

namespace Wrapper

/-- The wrapper that some classes call for. -/
def ofClasses? (has : String → Bool) : Option Wrapper :=
  if containerClasses.all has then some .container
  else
    (sectionClasses.find? fun (classes, _) => classes.all has).map fun (classes, size) =>
      .section classes size

/-- The classes that the wrapper stands for. -/
def consumed : Wrapper → List String
  | container => containerClasses ++ gutterClasses
  | .section classes _ => classes

def component : Wrapper → String
  | container => "Container"
  | .section .. => "Section"

def openTag : Wrapper → String
  | container => "<Container>"
  | .section _ size => s!"<Section size=\"{size}\">"

def closeTag (w : Wrapper) : String := s!"</{w.component}>"

end Wrapper

/-- Elements that are wrappers themselves. -/
def wrapperTags : List String := ["Container", "Section"]

/-- An element's wrapper, with its classes. -/
def match? (file : SourceFile) (e : Element) : Option (Wrapper × ClassList) :=
  if wrapperTags.contains (e.tagName file) then none
  else do
    let classes ← e.classList? file
    let wrapper ← Wrapper.ofClasses? classes.has
    return (wrapper, classes)

/-- The edits that wrap an element. -/
def wrap (file : SourceFile) (e : Element) (w : Wrapper) (classes : ClassList) : EditPlan :=
  let indent := file.indentOf e.node
  [classes.retain fun c => !w.consumed.contains c,
   .insert e.node.start s!"{w.openTag}\n{indent}{file.indentUnit}",
   .insert e.node.stop s!"\n{indent}{w.closeTag}"]

def plan (file : SourceFile) : EditPlan :=
  let found := (Element.all file).filterMap fun e => (match? file e).map (e, ·)
  let edits := found.flatMap fun (e, w, classes) => wrap file e w classes
  let components := Text.distinct (found.map fun (_, w, _) => w.component)
  if components.isEmpty then edits else edits ++ NamedImport.ensure file module components

end TokenLint.Codemod.Layout

namespace TokenLint

def Codemod.layout : Codemod :=
  ⟨"wrap-with-container-section",
   "Wrap max-width containers in <Container> and padded blocks in <Section size>",
   Codemod.Layout.plan⟩

end TokenLint
