import TokenLint.Text

/-!
# Edits and edit plans

A plan is computed against the unchanged text and applied in one pass from the front. An edit that
begins inside one already applied, or whose range is none of the text, leaves no trace.
-/
namespace TokenLint

/-- Puts a text in the place of a range. -/
structure Edit where
  span : Span
  text : String
  deriving DecidableEq, Repr

namespace Edit

def insert (offset : Nat) (text : String) : Edit := ⟨⟨offset, offset⟩, text⟩

def delete (span : Span) : Edit := ⟨span, ""⟩

/-- Whether an edit may be applied before another: by the start of its range, then by its end. -/
def precedes (a b : Edit) : Bool :=
  a.span.start < b.span.start || (a.span.start == b.span.start && a.span.stop ≤ b.span.stop)

end Edit

/-- Edits in the order in which they were planned. -/
abbrev EditPlan := List Edit

namespace EditPlan

/-- Applies edits that are in order to the characters from an offset on. -/
def splice : List Char → Nat → List Edit → List Char
  | cs, _, [] => cs
  | cs, pos, e :: es =>
    if e.span.start < pos || e.span.stop < e.span.start then splice cs pos es
    else
      match Text.take? cs (e.span.start - pos), Text.drop? cs (e.span.stop - pos) with
      | some kept, some rest => kept ++ e.text.toList ++ splice rest e.span.stop es
      | _, _ => splice cs pos es

/-- Edits by range, those of one range in the order in which they were planned. -/
def ordered (plan : EditPlan) : List Edit := plan.mergeSort Edit.precedes

def apply (plan : EditPlan) (text : String) : String :=
  String.ofList (splice text.toList 0 (ordered plan))

end EditPlan
end TokenLint
