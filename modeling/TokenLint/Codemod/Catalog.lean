import TokenLint.Codemod.Layout
import TokenLint.Codemod.Button
import TokenLint.Codemod.Badge
import TokenLint.Codemod.HexColor
import TokenLint.Codemod.LegacyToken

/-!
# All codemods
-/
namespace TokenLint.Codemod

/-- The codemods in the order in which they run. -/
def all : List Codemod := [layout, button, badge, hexColor, legacyToken]

def find? (name : String) : Option Codemod := all.find? (·.name == name)

end TokenLint.Codemod
