import TokenLint.Text

/-!
# Tables of runs

Properties of code points are kept as runs from zero upward.
-/
namespace TokenLint.Text.Runs

/-- The number that decimal digits spell; other characters are passed over. -/
def number (cs : List Char) : Nat :=
  cs.foldl (fun n c => if c.isDigit then 10 * n + (c.toNat - 48) else n) 0

/-- Numbers between blanks. -/
def numbers (s : String) : List Nat := (splitOn ' ' s.toList).map number

/-- Letters with the count behind each, which is one when it is left out. -/
def lettered (s : String) : List (Char × Nat) :=
  (splitOn ' ' s.toList).filterMap fun
    | [letter] => some (letter, 1)
    | letter :: digits => some (letter, number digits)
    | [] => none

def pairs : List Nat → List (Nat × Nat)
  | a :: b :: rest => (a, b) :: pairs rest
  | _ => []

/-- The value of the run that a code point falls into. -/
def lookup {α : Type} : List (α × Nat) → Nat → Option α
  | [], _ => none
  | (value, length) :: rest, n => if n < length then some value else lookup rest (n - length)

/-- Whether a code point falls into a run of members, when runs of others and of members take
turns. -/
def covers : List Nat → Nat → Bool
  | outside :: inside :: rest, n =>
    if n < outside then false
    else n - outside < inside || covers rest (n - outside - inside)
  | _, _ => false

end TokenLint.Text.Runs
