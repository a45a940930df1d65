import TokenLint.Pattern.Parse
import TokenLint.Pattern.Match

/-!
# Patterns for text

A pattern is found in a text when some part of the text matches it.
-/
namespace TokenLint.Pattern

/-- The most bytes that a pattern may take once it is compiled. -/
def sizeLimit : Nat := 10485760

/-- About how many bytes a set takes: many where it is spread over all planes. -/
def CharSet.weight : CharSet → Nat
  | word => 45500
  | decimal => 4200
  | blank => 700
  | category _ | script _ | scriptUse _ | property _ => 10000
  | range low high => if high.toNat < 128 || low == high then 32 else 300
  | union s t | intersection s t => s.weight + t.weight
  | complement s => s.weight + 250
  | folded s | asciiFolded s => s.weight + 16

/-- About how many bytes a matcher takes. -/
def Matcher.weight : Matcher → Nat
  | nothing | edge _ => 32
  | one s => s.weight
  | both first second => first.weight + second.weight
  | either left right => left.weight + right.weight + 32
  | repeated low none body => (max 1 low) * body.weight + 32
  | repeated low (some high) body => high * body.weight + (high - low) * 32

/-- Why a text is no pattern. -/
inductive Error where
  | defect (pattern : String) (d : Defect)
  | tooLarge

def Error.message : Error → String
  | defect pattern d => d.report pattern
  | tooLarge => s!"Compiled regex exceeds size limit of {sizeLimit} bytes."

end TokenLint.Pattern

namespace TokenLint

structure Pattern where
  matcher : Pattern.Matcher

namespace Pattern

def compile (pattern : String) : Except Error Pattern :=
  match (Term.parse pattern.toList).bind (·.meaning {}) with
  | .error d => .error (.defect pattern d)
  | .ok (m, _) => if sizeLimit < m.weight then .error .tooLarge else .ok ⟨m⟩

/-- Whether a pattern is found anywhere in a text. -/
def isFound (p : Pattern) (text : String) : Bool :=
  let cs := text.toList.toArray
  !(p.matcher.ends cs (List.range (cs.size + 1))).isEmpty

end Pattern
end TokenLint
