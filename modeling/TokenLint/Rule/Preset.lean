import TokenLint.Rule.RawColor
import TokenLint.Rule.ArbitraryValue

/-!
# Sets of rules
-/
namespace TokenLint.Rule

/-- All rules, as errors. -/
def recommended : List Rule := [rawColor .error, arbitraryValue]

/-- All rules, with raw colors as warnings. -/
def migration : List Rule := [rawColor .warning, arbitraryValue]

/-- The rule with a name, or with a code in any case. -/
def find? (nameOrCode : String) : Option Rule :=
  recommended.find? fun r => r.name == nameOrCode || Text.lower r.code == Text.lower nameOrCode

end TokenLint.Rule
