/-!
# JSON values

Numbers are whole where they fit in 64 bits, otherwise doubles.
-/
namespace TokenLint.Json

inductive Value where
  | null
  | bool (b : Bool)
  | natural (n : Nat)
  /-- A whole number below zero. -/
  | negative (n : Int)
  | double (x : Float)
  | string (s : String)
  | array (items : List Value)
  /-- Members with distinct keys. -/
  | object (members : List (String × Value))
  deriving Inhabited

namespace Value

/-- Adds a member, or gives the one that has this key a new value. -/
def insert (key : String) (v : Value) : List (String × Value) → List (String × Value)
  | [] => [(key, v)]
  | (k, w) :: rest => if k == key then (k, v) :: rest else (k, w) :: insert key v rest

/-- The member under a key; only objects have members. -/
def get? (key : String) : Value → Option Value
  | object members => members.lookup key
  | _ => none

def string? : Value → Option String
  | string s => some s
  | _ => none

def array? : Value → Option (List Value)
  | array items => some items
  | _ => none

/-- The strings of an array under a key; other items are passed over. -/
def strings? (key : String) (v : Value) : Option (List String) :=
  ((v.get? key).bind array?).map (·.filterMap string?)

end Value
end TokenLint.Json
