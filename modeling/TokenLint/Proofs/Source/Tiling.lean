import TokenLint.Proofs.Source.Marks

/-!
# Static text and interpolations tile a template

Between its marks a template is static text and interpolations in turn, static text first and last.
Any part of the static text can be empty: in front of an interpolation at the start, behind one at
the end, or between two that are side by side. Whatever its parts are, they follow one on another
from mark to mark, so that each offset between the marks is in one of them only.
-/
namespace TokenLint.Source.Node

/-- Static text and interpolations in turn lead from one offset to another. The first range and the
last one are static, and each range begins where the one before it ends. -/
inductive Tiles (stop : Nat) : Nat → List Span → List Span → Prop
  | last {start : Nat} (ordered : start ≤ stop) : Tiles stop start [⟨start, stop⟩] []
  | cons {start hole next : Nat} {quasis holes : List Span} (static : start ≤ hole)
      (filled : hole ≤ next) (rest : Tiles stop next quasis holes) :
      Tiles stop start (⟨start, hole⟩ :: quasis) (⟨hole, next⟩ :: holes)

variable {start stop : Nat} {quasis holes : List Span} {ns : List Node} {n : Node}

theorem Tiles.le (h : Tiles stop start quasis holes) : start ≤ stop := by
  induction h with
  | last ordered => exact ordered
  | cons static filled rest ih => exact Nat.le_trans static (Nat.le_trans filled ih)

/-- An offset is in one of the ranges if it is in the whole, and otherwise in none. -/
theorem Tiles.countP_eq (h : Tiles stop start quasis holes) (offset : Nat) :
    (quasis ++ holes).countP (fun s => s.start ≤ offset ∧ offset < s.stop) =
      if start ≤ offset ∧ offset < stop then 1 else 0 := by
  induction h with
  | last ordered =>
    rw [List.append_nil, List.countP_singleton]
    simp only [decide_eq_true_eq]
  | cons static filled rest ih =>
    have hle := rest.le
    rw [List.countP_append] at ih
    rw [List.countP_append, List.countP_cons, List.countP_cons]
    simp only [decide_eq_true_eq] at ih ⊢
    split <;> split <;> split at ih <;> split <;> omega

theorem length_gaps (stop start : Nat) (ns : List Node) :
    (gaps stop start ns).length = ns.length + 1 := by
  induction ns generalizing start with
  | nil => rfl
  | cons n ns ih => rw [gaps, List.length_cons, ih, List.length_cons]

/-- The gaps and the interpolations in turn fill the range without a break. -/
theorem tiles_gaps (h : Lined ns start stop) :
    Tiles stop start (gaps stop start ns) (ns.map span) := by
  induction ns generalizing start with
  | nil =>
    have hmax : max stop start = stop := Nat.max_eq_left h.ordered
    rw [gaps, hmax]
    exact .last h.ordered
  | cons n ns ih =>
    obtain ⟨hstart, hordered, -⟩ := h.within n List.mem_cons_self
    -- the interpolation begins no earlier than the static part in front of it
    have hmax : max n.start start = n.start := Nat.max_eq_left hstart
    rw [gaps, hmax]
    exact .cons hstart hordered (ih h.tail)

/-- How static text and interpolations make up a template. -/
structure Tiled (n : Node) : Prop where
  length_eq : n.quasis.length = n.substitutions.length + 1
  ordered : ∀ s ∈ n.quasis, s.start ≤ s.stop
  increasing : n.quasis.Pairwise fun a b => a.stop < b.start
  tiles : Tiles (n.stop - 1) (n.start + 1) n.quasis (n.substitutions.map span)
  /-- Between the marks each offset is in one of the ranges, and no other offset is in any. -/
  once : ∀ offset, (n.quasis ++ n.substitutions.map span).countP
    (fun s => s.start ≤ offset ∧ offset < s.stop) =
      if n.start + 1 ≤ offset ∧ offset < n.stop - 1 then 1 else 0

/-- A template with interpolations has one static part more than these. The static parts are in
order, and with the interpolations in turn they are the whole of what stands between the marks. -/
theorem quasis_tile (hn : n.Nests) (hclosed : n.Closed) (hk : n.kind = .template) : n.Tiled := by
  have hlined := hclosed.lined hn hk
  have htiles : Tiles (n.stop - 1) (n.start + 1) n.quasis (n.substitutions.map span) :=
    tiles_gaps hlined
  constructor
  case length_eq => exact length_gaps _ _ _
  case ordered => exact fun s hs => (mem_gaps hlined hs).2.1
  case increasing =>
    exact pairwise_gaps hlined fun s hs => ((hclosed.template hk).2 s hs).2.1
  case tiles => exact htiles
  case once => exact htiles.countP_eq

end TokenLint.Source.Node

namespace TokenLint.SourceFile

open Source

/-- A template with an interpolation at either end and two side by side. -/
def crowded : SourceFile := .parse "`$\x7ba\x7d$\x7bb\x7d p-4 $\x7bc\x7d`"

def crowdedTemplate : Node :=
  (crowded.root.preorder.find? (·.kind == .template)).getD crowded.root

theorem crowded_tiled :
    crowdedTemplate.Nests ∧ crowdedTemplate.Closed ∧ crowdedTemplate.kind = .template ∧
    crowdedTemplate.quasis = [⟨1, 1⟩, ⟨5, 5⟩, ⟨9, 14⟩, ⟨18, 18⟩] ∧
    crowdedTemplate.substitutions.map Node.span = [⟨1, 5⟩, ⟨5, 9⟩, ⟨14, 18⟩] ∧
    Node.Tiles 18 1 [⟨1, 1⟩, ⟨5, 5⟩, ⟨9, 14⟩, ⟨18, 18⟩] [⟨1, 5⟩, ⟨5, 9⟩, ⟨14, 18⟩] := by
  obtain ⟨hn, hclosed, hk, hspan, hquasis, hholes⟩ : crowdedTemplate.Nests ∧
      crowdedTemplate.Closed ∧ crowdedTemplate.kind = .template ∧
      (crowdedTemplate.start = 0 ∧ crowdedTemplate.stop = 19) ∧
      crowdedTemplate.quasis = [⟨1, 1⟩, ⟨5, 5⟩, ⟨9, 14⟩, ⟨18, 18⟩] ∧
      crowdedTemplate.substitutions.map Node.span = [⟨1, 5⟩, ⟨5, 9⟩, ⟨14, 18⟩] := by
    decide +kernel
  have htiles := (Node.quasis_tile hn hclosed hk).tiles
  rw [hspan.1, hspan.2, hquasis, hholes] at htiles
  exact ⟨hn, hclosed, hk, hquasis, hholes, htiles⟩

end TokenLint.SourceFile
