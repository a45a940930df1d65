import TokenLint.Glob.Parse

/-!
# Which paths a glob matches

Paths are matched byte by byte: `?` and a negated set stand for one byte, not one character, and
ignoring case means ignoring the case of ASCII letters.
-/
namespace TokenLint.Glob

def slash : UInt8 := 47

/-- The byte with the case of an ASCII letter changed. -/
def otherCase (b : UInt8) : UInt8 :=
  if 65 ≤ b && b ≤ 90 then b + 32 else if 97 ≤ b && b ≤ 122 then b - 32 else b

def utf8 (c : Char) : List UInt8 := c.toString.toUTF8.toList

/-- Ranges of bytes for a range of characters: the bytes are members one by one, but the last
byte of the low end and the first of the high end span a range. -/
def byteRanges (low high : Char) : List (UInt8 × UInt8) :=
  if low == high then (utf8 low).map fun b => (b, b)
  else
    let before := (utf8 low).dropLast.map fun b => (b, b)
    let after := (utf8 high).drop 1 |>.map fun b => (b, b)
    before ++ ((utf8 low).getLast?.getD 0, (utf8 high).head?.getD 0) :: after

/-- Whether a byte is in a set. -/
def inSet (ignoreCase negated : Bool) (ranges : List (Char × Char)) (b : UInt8) : Bool :=
  let bytes := ranges.flatMap fun (low, high) => byteRanges low high
  let has (x : UInt8) := bytes.any fun (low, high) => low ≤ x && x ≤ high
  (has b || (ignoreCase && has (otherCase b))) != negated

def sameByte (ignoreCase : Bool) (a b : UInt8) : Bool :=
  a == b || (ignoreCase && otherCase a == b)

mutual
/-- Whether a part stands for nothing, as a choice without a branch does. -/
def Part.isVoid : Part → Bool
  | .choice branches => allVoid branches
  | _ => false

def partsVoid : List Part → Bool
  | [] => true
  | p :: ps => p.isVoid && partsVoid ps

def allVoid : List (List Part) → Bool
  | [] => true
  | b :: bs => partsVoid b && allVoid bs
end

/-- Reads these very bytes, then goes on. -/
def literal (ignoreCase : Bool) : List UInt8 → (List UInt8 → Bool) → List UInt8 → Bool
  | [], next, bs => next bs
  | _ :: _, _, [] => false
  | x :: xs, next, b :: bs => sameByte ignoreCase x b && literal ignoreCase xs next bs

/-- Goes on behind any number of bytes that satisfy `p`. -/
def skipping (p : UInt8 → Bool) (next : List UInt8 → Bool) : List UInt8 → Bool
  | [] => next []
  | b :: bs => next (b :: bs) || (p b && skipping p next bs)

/-- Goes on behind any of the slashes. -/
def behindSlash (next : List UInt8 → Bool) : List UInt8 → Bool
  | [] => false
  | b :: bs => (b == slash && next bs) || behindSlash next bs

mutual
/-- Reads what a part stands for, then goes on. -/
def Part.matches (ignoreCase : Bool) : Part → (List UInt8 → Bool) → List UInt8 → Bool
  | .char c, next, bs => literal ignoreCase (utf8 c) next bs
  | .one, next, bs =>
    match bs with
    | [] => false
    | b :: rest => b != slash && next rest
  | .many, next, bs => skipping (· != slash) next bs
  | .deepStart, next, bs => next bs || behindSlash next bs
  | .deepEnd, next, bs =>
    match bs with
    | [] => false
    | b :: rest => b == slash && skipping (fun _ => true) next rest
  | .deepBetween, next, bs =>
    match bs with
    | [] => false
    | b :: rest => b == slash && (next rest || behindSlash next rest)
  | .set negated ranges, next, bs =>
    match bs with
    | [] => false
    | b :: rest => inSet ignoreCase negated ranges b && next rest
  | .choice branches, next, bs =>
    if allVoid branches then next bs else anyMatches ignoreCase branches next bs

def partsMatch (ignoreCase : Bool) : List Part → (List UInt8 → Bool) → List UInt8 → Bool
  | [], next, bs => next bs
  | p :: ps, next, bs =>
    p.matches ignoreCase (fun rest => partsMatch ignoreCase ps next rest) bs

/-- Reads one of the branches that stand for something, then goes on. -/
def anyMatches (ignoreCase : Bool) : List (List Part) → (List UInt8 → Bool) → List UInt8 → Bool
  | [], _, _ => false
  | b :: branches, next, bs =>
    (!partsVoid b && partsMatch ignoreCase b next bs) || anyMatches ignoreCase branches next bs
end

end TokenLint.Glob

namespace TokenLint

/-- A pattern for slash-separated paths, ready to match. -/
structure Glob where
  parts : List Glob.Part
  ignoreCase : Bool

namespace Glob

def compile (pattern : String) (ignoreCase : Bool) : Except Error Glob :=
  (parse .closed pattern).map (⟨·, ignoreCase⟩)

/-- Compiles a pattern in which a bracket that opens no set is plain. -/
def compileLenient (pattern : String) : Except Error Glob :=
  (parse .lenient pattern).map (⟨·, false⟩)

/-- Whether a glob matches a whole path; a lone `**` matches every path. -/
def accepts (g : Glob) (path : String) : Bool :=
  match g.parts with
  | [.deepStart] => true
  | parts => partsMatch g.ignoreCase parts List.isEmpty path.toUTF8.toList

end Glob
end TokenLint
