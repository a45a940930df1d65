import TokenLint.Command.Parameter
import TokenLint.Rule.Preset

/-!
# Commands

A command line names one command. The options for the configuration stand before or behind its
name, where the later one counts, or in the environment.
-/
namespace TokenLint.Command

/-- How a report is told. -/
inductive Format where
  | text
  | pretty
  | json
  | compact
  deriving DecidableEq, Repr

def Format.ofName? (name : String) : Option Format :=
  [("text", .text), ("pretty", .pretty), ("json", .json), ("compact", .compact)].lookup name

/-- The rules of a preset. -/
def presetRules? (name : String) : Option (List Rule) :=
  [("recommended", Rule.recommended), ("migration", Rule.migration)].lookup name

/-- The rules among names and codes between commas; others are passed over. -/
def namedRules (names : String) : List Rule :=
  (Text.splitOn ',' names.toList).filterMap fun name =>
    Rule.find? (Text.trim (String.ofList name))

inductive Action where
  | check (path : String) (format : Format) (rules : List Rule) (excluded : List String)
  | codemod (dry : Bool) (included excluded : List String) (only : Option String)
  | guard (path : String) (dirs : List String)
  | listRules
  | init (force : Bool)

structure Invocation where
  verbose : Bool
  configPath : Option String
  allowlistPath : Option String
  action : Action

/-- A path has characters. -/
def isPath (value : String) : Bool := !value.isEmpty

/-- Options that stand before or behind a command's name. -/
def generalParameters : List Parameter :=
  [{ long := "verbose", short := some 'v', takesValue := false },
   { long := "config", short := some 'c', accepts := isPath },
   { long := "allowlist", short := some 'a', accepts := isPath }]

/-- Variables of the environment that stand for options. -/
def environmentNames : List (String × String) :=
  [("config", "DESIGN_LINT_CONFIG"), ("allowlist", "DESIGN_LINT_ALLOWLIST")]

def checkGrammar : Grammar :=
  { parameters := generalParameters ++
      [{ long := "format", short := some 'f', accepts := fun s => (Format.ofName? s).isSome },
       { long := "preset", accepts := fun s => (presetRules? s).isSome },
       { long := "rules" },
       { long := "exclude", short := some 'e', repeats := true }]
    operands := 1 }

def codemodGrammar : Grammar :=
  { parameters := generalParameters ++
      [{ long := "dry", takesValue := false },
       { long := "include", repeats := true },
       { long := "exclude", repeats := true },
       { long := "only" }] }

def guardGrammar : Grammar :=
  { parameters := generalParameters ++ [{ long := "dir", repeats := true }]
    operands := 1 }

def listGrammar : Grammar := { parameters := generalParameters }

def initGrammar : Grammar :=
  { parameters := generalParameters ++ [{ long := "force", takesValue := false }] }

/-- The path operand, which must not be empty; the working directory when there is none. -/
def pathOperand (given : Given) : Except Refusal String :=
  match given.operands with
  | [] => .ok "."
  | path :: _ => if path.isEmpty then .error .misused else .ok path

def checkAction (given : Given) : Except Refusal Action :=
  (pathOperand given).map fun path =>
    let preset := ((given.value? "preset").bind presetRules?).getD Rule.recommended
    .check path (((given.value? "format").bind Format.ofName?).getD .text)
      (((given.value? "rules").map namedRules).getD preset) (given.values "exclude")

def codemodAction (given : Given) : Except Refusal Action :=
  .ok (.codemod (given.has "dry") (given.values "include") (given.values "exclude")
    (given.value? "only"))

def guardAction (given : Given) : Except Refusal Action :=
  (pathOperand given).map fun path => .guard path (given.values "dir")

/-- Each command with what it knows and what it does. -/
def table : List (String × Grammar × (Given → Except Refusal Action)) :=
  [("check", checkGrammar, checkAction), ("codemod", codemodGrammar, codemodAction),
   ("guard", guardGrammar, guardAction), ("list-rules", listGrammar, fun _ => .ok .listRules),
   ("init", initGrammar, fun given => .ok (.init (given.has "force")))]

/-- What may stand before a command's name. -/
def generalGrammar : Grammar :=
  { parameters := generalParameters, commands := "help" :: table.map (·.1), hasVersion := true }

/-- An option's value: behind the command's name, before it, or in the environment. A variable is
read where either side lacks the option, and then it must not be empty. -/
def general? (environment : List (String × String)) (outer inner : Given) (long : String) :
    Except Refusal (Option String) :=
  let setting := (environmentNames.lookup long).bind fun name => environment.lookup name
  if setting == some "" && !(outer.has long && inner.has long) then .error .misused
  else .ok (((inner.value? long).or (outer.value? long)).or setting)

namespace Invocation

/-- Puts together what stands before and behind a command's name. -/
def combine (environment : List (String × String)) (outer inner : Given) (action : Action) :
    Except Refusal Invocation :=
  match general? environment outer inner "config", general? environment outer inner "allowlist" with
  | .ok config, .ok allowlist =>
    .ok ⟨outer.has "verbose" || inner.has "verbose", config, allowlist, action⟩
  | .error e, _ => .error e
  | _, .error e => .error e

/-- The invocation that the words of a command line stand for. -/
def parse (environment : List (String × String)) (words : List String) :
    Except Refusal Invocation :=
  match generalGrammar.read ({}, none) words with
  | .error e => .error e
  | .ok (_, none) => .error .misused
  | .ok (outer, some (name, rest)) =>
    match table.lookup name with
    | none => .error .help
    | some (grammar, action) =>
      match grammar.read ({}, none) rest with
      | .error e => .error e
      | .ok (inner, _) =>
        match action inner with
        | .error e => .error e
        | .ok action => combine environment outer inner action

end Invocation
end TokenLint.Command
