import TokenLint.Json.Printer
import TokenLint.Violation

/-!
# Reports as lists

A report for a terminal has a paragraph for each violation and a colored summary; a compact one
has a line for each; and a document holds everything there is to know.
-/
namespace TokenLint

/-- Colors of a terminal. -/
inductive TerminalColor where
  | red
  | green
  | yellow
  | blue
  deriving DecidableEq, Repr

namespace TerminalColor

def number : TerminalColor → Nat
  | red => 31
  | green => 32
  | yellow => 33
  | blue => 34

/-- A text in a color. -/
def paint (c : TerminalColor) (s : String) : String := s!"\x1b[{c.number}m{s}\x1b[0m"

end TerminalColor

def Severity.color : Severity → TerminalColor
  | .error => .red
  | .warning => .yellow
  | .info => .blue

namespace Violation

/-- Some lines for a terminal, with an empty one behind them. -/
def coloredParagraph (v : Violation) : String :=
  let l := v.location
  s!"{v.code} {v.rule} at {l.file}:{l.line}:{l.column}\n" ++
  s!"  {v.severity.color.paint v.severity.name}: {v.message}\n" ++
  v.suggestion.elim "" (fun help => s!"  = help: {help}\n") ++ "\n"

def toJson (v : Violation) : Json.Value :=
  let l := v.location
  .object
    [("code", .string v.code), ("rule", .string v.rule), ("message_id", .string v.messageId),
     ("severity", .string v.severity.name),
     ("location", .object
       [("file", .string l.file), ("line", .natural l.line), ("column", .natural l.column),
        ("offset", .natural l.offset), ("length", .natural l.length)]),
     ("message", .string v.message),
     ("suggestion", v.suggestion.elim .null fun help => .object [("message", .string help)])]

end Violation

namespace Report

/-- The color of the worst that was found. -/
def color (r : Report) : TerminalColor :=
  if r.count .error > 0 then .red else if r.count .warning > 0 then .yellow else .green

def summary (r : Report) : String :=
  r.color.paint
    (s!"Found {r.count .error} error(s), {r.count .warning} warning(s), " ++
      s!"{r.count .info} info(s) in {r.filesChecked} file(s)") ++ "\n"

/-- The report for a terminal. -/
def listing (r : Report) : String :=
  String.join (r.violations.map (·.coloredParagraph)) ++ r.summary

/-- One line for each violation. -/
def compact (r : Report) : String := String.join (r.violations.map fun v => v.line ++ "\n")

def toJson (r : Report) : Json.Value :=
  .object
    [("violations", .array (r.violations.map Violation.toJson)),
     ("files_checked", .natural r.filesChecked)]

end Report
end TokenLint
