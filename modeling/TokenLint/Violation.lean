import TokenLint.Path

/-!
# Violations and reports

A report is ordered by file, component by component, then line, then column; violations at one
place stay in the order in which they were found.
-/
namespace TokenLint

inductive Severity where
  | info
  | warning
  | error
  deriving DecidableEq, Repr

namespace Severity

def name : Severity → String
  | info => "info"
  | warning => "warning"
  | error => "error"

def rank : Severity → Nat
  | info => 0
  | warning => 1
  | error => 2

end Severity

/-- A place in a file; lines and columns count from one, columns and offsets in bytes. -/
structure Location where
  file : String
  line : Nat
  column : Nat
  offset : Nat := 0
  length : Nat := 0
  deriving DecidableEq, Repr

structure Violation where
  code : String
  rule : String
  /-- Which of the rule's messages it is. -/
  messageId : String
  severity : Severity
  location : Location
  message : String
  /-- What to do about it. -/
  suggestion : Option String := none
  deriving DecidableEq, Repr

namespace Violation

/-- One line for a list. -/
def line (v : Violation) : String :=
  let l := v.location
  s!"{l.file}:{l.line}:{l.column}: {v.severity.name} [{v.code}] {v.message}"

/-- Some lines for a person. -/
def paragraph (v : Violation) : String :=
  let l := v.location
  s!"{v.code} {v.rule} at {l.file}:{l.line}:{l.column}\n" ++
  s!"  {v.severity.name}: {v.message}\n" ++
  v.suggestion.elim "" fun help => s!"  = help: {help}\n"

/-- What a report with source lines says first. -/
def headline (v : Violation) : String := s!"[{v.code}] {v.message}"

/-- Whether one violation may stand before another in order. -/
def precedes (a b : Violation) : Bool :=
  (((Path.compare a.location.file b.location.file).then
    (compare a.location.line b.location.line)).then
    (compare a.location.column b.location.column)).isLE

end Violation

/-- The violations found, and how many files were looked at. -/
structure Report where
  violations : List Violation := []
  filesChecked : Nat := 0

namespace Report

def push (r : Report) (v : Violation) : Report := { r with violations := r.violations ++ [v] }

def checked (r : Report) (n : Nat) : Report := { r with filesChecked := r.filesChecked + n }

/-- Both reports, the second behind the first. -/
def append (r s : Report) : Report :=
  ⟨r.violations ++ s.violations, r.filesChecked + s.filesChecked⟩

def sort (r : Report) : Report :=
  { r with violations := r.violations.mergeSort Violation.precedes }

def count (r : Report) (s : Severity) : Nat := r.violations.countP (·.severity == s)

def hasErrors (r : Report) : Bool := r.violations.any (·.severity == .error)

/-- Whether there is a violation at least as severe. -/
def hasAtLeast (r : Report) (s : Severity) : Bool :=
  r.violations.any fun v => s.rank ≤ v.severity.rank

end Report
end TokenLint
