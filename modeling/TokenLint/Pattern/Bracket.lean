import TokenLint.Pattern.Escape

/-!
# Bracketed sets of a pattern

A set is a union of characters, ranges and sets; `&&`, `--` and `~~` combine unions from the left.
-/
namespace TokenLint.Pattern
open Reader

/-- A set whose closing bracket has not been met. -/
structure OpenSet where
  /-- From the bracket up to the first member. -/
  opening : Region
  negated : Bool
  /-- What stands before the operator that was met last. -/
  left : Option (SetOp × SetItem)
  /-- Members of the set around it, last one first. -/
  outer : List SetItem

namespace OpenSet

/-- The union of members given last one first; `place` stands for a union without any. -/
def unite (place : Place) : List SetItem → SetItem
  | [] => .union [] ⟨place, place⟩
  | [item] => item
  | last :: items =>
    let first := (items.getLast?.getD last).region.first
    .union (last :: items).reverse ⟨first, last.region.last⟩

/-- What was read of a set, the pending operator applied. -/
def body (s : OpenSet) (right : SetItem) : SetItem :=
  match s.left with
  | none => right
  | some (op, left) => .combined op left right ⟨left.region.first, right.region.last⟩

end OpenSet

/-- A named set in a bracket, such as `[:alpha:]`; anything else is not read. -/
def asciiSet? (s : State) : Option (SetItem × State) :=
  match s.rest with
  | '[' :: ':' :: cs =>
    let negated := cs.head? == some '^'
    let named := if negated then cs.drop 1 else cs
    let name := named.takeWhile (· != ':')
    match named.dropWhile (· != ':') with
    | ':' :: ']' :: _ =>
      (AsciiSet.named? name).map fun set =>
        let length := name.length + (if negated then 5 else 4)
        let s' := (List.range length).foldl (fun s _ => s.bump) s
        (.ascii set negated ⟨s.place, s'.place⟩, s')
    | _ => none
  | _ => none

/-- Dashes that come first in a set are members. -/
def leadingDashes (start : Place) : Nat → List SetItem → Reader (List SetItem)
  | 0, items => return items
  | fuel + 1, items => do
    if (← current?) != some '-' then return items
    let r ← charRegion
    step
    if ← atEnd then fail .unclosedSet start start
    leadingDashes start fuel (.letter ⟨'-', r, false⟩ :: items)

/-- Reads an opening bracket and what may only stand behind it: a negation, dashes, or a closing
bracket as the first member. -/
def openSet (outer : List SetItem) : Reader (OpenSet × List SetItem) := do
  let start ← here
  let unclosed : Reader Unit := do
    if ← atEnd then fail .unclosedSet start (← here)
  step
  unclosed
  let negated := (← current?) == some '^'
  if negated then
    step
    unclosed
  let dashes ← leadingDashes start (← get).rest.length []
  if dashes.isEmpty && (← current?) == some ']' then
    let r ← charRegion
    step
    unclosed
    return (⟨⟨start, ← here⟩, negated, none, outer⟩, [.letter ⟨']', r, false⟩])
  return (⟨⟨start, ← here⟩, negated, none, outer⟩, dashes)

/-- A character or an escape in a set. -/
def setAtom : Reader Atom := do
  match ← current? with
  | some '\\' => escape
  | some c =>
    let r ← charRegion
    bump
    return .letter ⟨c, r, false⟩
  | none => failHere .unclosedSet

def Atom.asMember : Atom → Reader SetItem
  | .letter l => return .letter l
  | .shorthand s negated r => return .shorthand s negated r
  | .property q negated r => return .property q negated r
  | .anchor _ r => fail .setEscape r.first r.last

def Atom.asBoundary : Atom → Reader Letter
  | .letter l => return l
  | .shorthand _ _ r | .property _ _ r | .anchor _ r => fail .setBoundary r.first r.last

/-- A member of a set, or a range of characters. -/
def setMember (s : OpenSet) : Reader SetItem := do
  let unclosed : Reader Unit := do
    if ← atEnd then fail .unclosedSet s.opening.first s.opening.last
  let low ← setAtom
  space
  unclosed
  let next := (← get).next?
  if (← current?) != some '-' || next == some ']' || next == some '-' then low.asMember
  else
    step
    unclosed
    let high ← setAtom
    let low ← low.asBoundary
    let high ← high.asBoundary
    if high.char < low.char then fail .setRange low.region.first high.region.last
    return .range low high

/-- The operator that comes next, and its spelling. -/
def setOp? : List Char → Option (SetOp × List Char)
  | '&' :: '&' :: _ => some (.intersection, ['&', '&'])
  | '-' :: '-' :: _ => some (.difference, ['-', '-'])
  | '~' :: '~' :: _ => some (.symmetricDifference, ['~', '~'])
  | _ => none

/-- Reads on in a set that lies in the sets of `around`, innermost first; the members read since
the last operator are given last one first. -/
def setFrom : Nat → OpenSet → List OpenSet → List SetItem → Reader Term
  | 0, _, _, _ => failHere .unclosedSet
  | fuel + 1, s, around, items => do
    space
    match ← current? with
    | none => fail .unclosedSet s.opening.first s.opening.last
    | some '[' =>
      match asciiSet? (← get) with
      | some (item, rest) =>
        set rest
        setFrom fuel s around (item :: items)
      | none =>
        let (inner, members) ← openSet items
        setFrom fuel inner (s :: around) members
    | some ']' =>
      let body := s.body (OpenSet.unite (← here) items)
      bump
      let region : Region := ⟨s.opening.first, ← here⟩
      match around with
      | [] => return .bracketed s.negated body region
      | outer :: more =>
        setFrom fuel outer more (.bracketed s.negated body region :: s.outer)
    | some _ =>
      match setOp? (← get).rest with
      | some (op, spelling) =>
        let left := s.body (OpenSet.unite (← here) items)
        let _ ← accept spelling
        setFrom fuel { s with left := some (op, left) } around []
      | none => do
        let item ← setMember s
        setFrom fuel s around (item :: items)

/-- A set from its opening bracket on. -/
def bracketed : Reader Term := do
  let (s, members) ← openSet []
  setFrom ((← get).rest.length + 1) s [] members

end TokenLint.Pattern
