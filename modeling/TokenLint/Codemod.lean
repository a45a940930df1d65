import TokenLint.Edit
import TokenLint.Source

/-!
# Codemods

A codemod plans edits for a file from its text alone.
-/
namespace TokenLint

structure Codemod where
  name : String
  description : String
  plan : SourceFile → EditPlan

namespace Codemod

/-- The text that a codemod makes of another, if it changes anything. -/
def revise? (c : Codemod) (text : String) : Option String :=
  let plan := c.plan (SourceFile.parse text)
  let revised := plan.apply text
  if plan.isEmpty || revised == text then none else some revised

end Codemod
end TokenLint
