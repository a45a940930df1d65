/-!
# Words of a command line

Options begin with dashes: long ones with two, short ones with one, which several short ones may
share. An option's value follows an equals sign, the short option itself, or comes as the next
word. Behind two dashes alone no word is an option.
-/
namespace TokenLint.Command

/-- An option that a command knows. -/
structure Parameter where
  long : String
  short : Option Char := none
  takesValue : Bool := true
  /-- Whether it may be given more than once. -/
  repeats : Bool := false
  /-- Which values it takes. -/
  accepts : String → Bool := fun _ => true

/-- Why a command does not run: it is asked something else, or not understood. -/
inductive Refusal where
  | help
  | version
  | misused
  deriving DecidableEq, Repr

/-- What a command knows. -/
structure Grammar where
  parameters : List Parameter
  /-- How many words that are no options it takes. -/
  operands : Nat := 0
  /-- The commands that may follow. -/
  commands : List String := []
  /-- Whether it tells its version. -/
  hasVersion : Bool := false

/-- What was given to a command, last option first. -/
structure Given where
  options : List (String × String) := []
  operands : List String := []

namespace Given

def has (g : Given) (long : String) : Bool := g.options.any (·.1 == long)

/-- The value of an option. -/
def value? (g : Given) (long : String) : Option String := g.options.lookup long

/-- The values of an option that repeats, in order. -/
def values (g : Given) (long : String) : List String :=
  (g.options.filter (·.1 == long)).reverse.map (·.2)

/-- Takes an option down, unless it was given before or does not take the value. -/
def add (g : Given) (p : Parameter) (value : String) : Except Refusal Given :=
  if (g.has p.long && !p.repeats) || !p.accepts value then .error .misused
  else .ok { g with options := (p.long, value) :: g.options }

end Given

/-- Whether a word cannot be the value of the option before it. -/
def isOption (word : String) : Bool :=
  match word.toList with
  | '-' :: _ :: _ => true
  | _ => false

/-- What is known after a word: what was given, and an option that waits for its value. -/
abbrev Progress := Given × Option Parameter

namespace Grammar

/-- A word with two dashes in front, which are left out here. -/
def readLong (g : Grammar) (given : Given) (word : List Char) : Except Refusal Progress :=
  let name := String.ofList (word.takeWhile (· != '='))
  let value := word.dropWhile (· != '=')
  if name == "help" then .error (if value.isEmpty then .help else .misused)
  else if name == "version" && g.hasVersion then
    .error (if value.isEmpty then .version else .misused)
  else
    match g.parameters.find? (·.long == name), value with
    | none, _ => .error .misused
    | some p, [] => if p.takesValue then .ok (given, some p) else (given.add p "").map (·, none)
    | some p, _ :: value =>
      if p.takesValue then (given.add p (String.ofList value)).map (·, none) else .error .misused

/-- Short options that share a dash. -/
def readShort (g : Grammar) (given : Given) : List Char → Except Refusal Progress
  | [] => .ok (given, none)
  | c :: cs =>
    if c == 'h' then .error .help
    else if c == 'V' && g.hasVersion then .error .version
    else
      match g.parameters.find? (·.short == some c), cs with
      | none, _ => .error .misused
      | some p, _ =>
        if p.takesValue then
          match cs with
          | [] => .ok (given, some p)
          | '=' :: value => (given.add p (String.ofList value)).map (·, none)
          | value => (given.add p (String.ofList value)).map (·, none)
        else
          match given.add p "" with
          | .error e => .error e
          | .ok given => g.readShort given cs

/-- A word that is no option. -/
def readOperand (g : Grammar) (given : Given) (word : String) : Except Refusal Given :=
  if given.operands.length < g.operands then
    .ok { given with operands := given.operands ++ [word] }
  else .error .misused

/-- Words behind two dashes. -/
def readOperands (g : Grammar) : Given → List String → Except Refusal Given
  | given, [] => .ok given
  | given, word :: words =>
    match g.readOperand given word with
    | .error e => .error e
    | .ok given => g.readOperands given words

/-- Reads words up to the end, or to the name of a command, which is returned with the words
behind it. -/
def read (g : Grammar) :
    Progress → List String → Except Refusal (Given × Option (String × List String))
  | (given, none), [] => .ok (given, none)
  | (_, some _), [] => .error .misused
  | (given, some p), word :: words =>
    if isOption word then .error .misused
    else
      match given.add p word with
      | .error e => .error e
      | .ok given => g.read (given, none) words
  | (given, none), word :: words =>
    match word.toList with
    | ['-', '-'] => (g.readOperands given words).map (·, none)
    | '-' :: '-' :: cs =>
      match g.readLong given cs with
      | .error e => .error e
      | .ok progress => g.read progress words
    | '-' :: c :: cs =>
      match g.readShort given (c :: cs) with
      | .error e => .error e
      | .ok progress => g.read progress words
    | _ =>
      if g.commands.contains word then .ok (given, some (word, words))
      else
        match g.readOperand given word with
        | .error e => .error e
        | .ok given => g.read (given, none) words

end Grammar
end TokenLint.Command
