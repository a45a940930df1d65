import TokenLint.Pattern.Property

/-!
# What the terms of a pattern mean

Flags hold from where they are set to the end of the group. Where the flag `unicode` is off,
literals and sets are about bytes, and what is not ASCII is refused.
-/
namespace TokenLint.Pattern

/-- A condition on a place between two characters. -/
inductive Edge where
  | textStart
  | textEnd
  | lineStart (crlf : Bool)
  | lineEnd (crlf : Bool)
  /-- A condition on whether there is a part of a word before and behind. -/
  | word (unicode : Bool) (test : Bool → Bool → Bool)

inductive Matcher where
  | nothing
  | one (s : CharSet)
  | edge (e : Edge)
  | both (first second : Matcher)
  | either (left right : Matcher)
  | repeated (low : Nat) (high : Option Nat) (body : Matcher)

structure Flags where
  ignoreCase : Bool := false
  multiLine : Bool := false
  dotAll : Bool := false
  unicode : Bool := true
  crlf : Bool := false

namespace Flags

def set (f : Flags) : Flag × Bool → Flags
  | (.ignoreCase, on) => { f with ignoreCase := on }
  | (.multiLine, on) => { f with multiLine := on }
  | (.dotAll, on) => { f with dotAll := on }
  | (.unicode, on) => { f with unicode := on }
  | (.crlf, on) => { f with crlf := on }
  | (.swapGreed, _) | (.verbose, _) => f

def change (f : Flags) (c : FlagChange) : Flags := c.foldl set f

/-- A set with the characters that it has when case is ignored. -/
def fold (f : Flags) (s : CharSet) : CharSet :=
  if !f.ignoreCase then s else if f.unicode then .folded s else .asciiFolded s

end Flags

def defect {α : Type} (fault : Fault) (r : Region) : Except Defect α := .error ⟨fault, r, none⟩

/-- Refuses a set of bytes that are not ASCII. -/
def asciiOnly (f : Flags) (r : Region) (s : CharSet) : Except Defect CharSet :=
  if f.unicode || s.isAsciiBytes then .ok s else defect .notUtf8 r

/-- The character of a member of a set; without `unicode` it must be a byte. -/
def memberChar (f : Flags) (l : Letter) : Except Defect Char :=
  if f.unicode || l.isByte || l.char.toNat < 128 then .ok l.char else defect .notUnicode l.region

def shorthandSet (f : Flags) (s : Shorthand) (negated : Bool) (r : Region) :
    Except Defect CharSet :=
  asciiOnly f r (.negateIf negated (.shorthand f.unicode s))

def propertySet (f : Flags) (q : PropertyQuery) (negated : Bool) (r : Region) :
    Except Defect CharSet :=
  if !f.unicode then defect .notUnicode r
  else match q.charSet with
    | .error fault => defect fault r
    | .ok s => .ok (.negateIf negated (f.fold s))

mutual
def SetItem.charSet (f : Flags) : SetItem → Except Defect CharSet
  | .letter l => (memberChar f l).map CharSet.single
  | .range low high => do return .range (← memberChar f low) (← memberChar f high)
  | .ascii s negated r => asciiOnly f r (.negateIf negated (f.fold (.ascii s)))
  | .shorthand s negated r => shorthandSet f s negated r
  | .property q negated r => propertySet f q negated r
  | .bracketed negated body r => do
    asciiOnly f r (.negateIf negated (f.fold (← body.charSet f)))
  | .union items _ => itemsCharSet f items
  | .combined op left right _ => do
    let s ← left.charSet f
    let t ← right.charSet f
    return .combine op (f.fold s) (f.fold t)

def itemsCharSet (f : Flags) : List SetItem → Except Defect CharSet
  | [] => .ok .none
  | i :: is => do return .union (← i.charSet f) (← itemsCharSet f is)
end

/-- A literal character. Without `unicode` a number of two digits above ASCII would be a byte, and
case cannot be ignored beyond ASCII. -/
def letterMatcher (f : Flags) (l : Letter) : Except Defect Matcher :=
  if f.unicode then .ok (.one (f.fold (.single l.char)))
  else if l.char.toNat < 128 then .ok (.one (f.fold (.single l.char)))
  else if l.isByte then defect .notUtf8 l.region
  else if f.ignoreCase then defect .notUnicode l.region
  else .ok (.one (.single l.char))

def lineFeed : CharSet := .single '\n'

def dotSet (f : Flags) : CharSet :=
  if f.dotAll then .all
  else if f.crlf then .complement (.union lineFeed (.single '\r'))
  else .complement lineFeed

def Anchor.edge (f : Flags) : Anchor → Edge
  | lineStart => if f.multiLine then .lineStart f.crlf else .textStart
  | lineEnd => if f.multiLine then .lineEnd f.crlf else .textEnd
  | textStart => .textStart
  | textEnd => .textEnd
  | wordEdge => .word f.unicode fun before behind => before != behind
  | noWordEdge => .word f.unicode fun before behind => before == behind
  | wordStart => .word f.unicode fun before behind => !before && behind
  | wordEnd => .word f.unicode fun before behind => before && !behind
  | wordStartHalf => .word f.unicode fun before _ => !before
  | wordEndHalf => .word f.unicode fun _ behind => !behind

mutual
/-- The matcher of a term, and the flags that hold behind it. -/
def Term.meaning (f : Flags) : Term → Except Defect (Matcher × Flags)
  | .empty => .ok (.nothing, f)
  | .letter l => (letterMatcher f l).map (·, f)
  | .dot r =>
    if f.unicode then .ok (.one (dotSet f), f) else defect .notUtf8 r
  | .anchor a => .ok (.edge (a.edge f), f)
  | .shorthand s negated r => (shorthandSet f s negated r).map (.one ·, f)
  | .property q negated r => (propertySet f q negated r).map (.one ·, f)
  | .bracketed negated body r =>
    ((SetItem.bracketed negated body r).charSet f).map (.one ·, f)
  | .flags c => .ok (.nothing, f.change c)
  | .repeated low high body _ => do
    let (m, f') ← body.meaning f
    return (.repeated low high m, f')
  | .group c body _ => do
    let (m, _) ← body.meaning (f.change c)
    return (m, f)
  | .choice branches _ => branchesMeaning f branches
  | .sequence parts _ => partsMeaning f parts

/-- Branches in order; flags set in one hold in the next. -/
def branchesMeaning (f : Flags) : List Term → Except Defect (Matcher × Flags)
  | [] => .ok (.one .none, f)
  | t :: ts => do
    let (m, f') ← t.meaning f
    let (rest, f'') ← branchesMeaning f' ts
    return (.either m rest, f'')

def partsMeaning (f : Flags) : List Term → Except Defect (Matcher × Flags)
  | [] => .ok (.nothing, f)
  | t :: ts => do
    let (m, f') ← t.meaning f
    let (rest, f'') ← partsMeaning f' ts
    return (.both m rest, f'')
end

end TokenLint.Pattern
