import TokenLint.Proofs.Rule.Contribution

/-!
# Merge helpers and the class strings that they let through

An expression has class strings of its own, and it passes on those of some expressions in it. Only
a call looks at the merge helpers: it passes on its arguments or nothing. So more helpers never
take a class string away, and a helper by whose name no call is made that the reading comes to
makes no difference.
-/
namespace TokenLint.Source.Node

/-- The class strings that an expression has itself. -/
def ownSpans (n : Node) : List Span :=
  match n.bareShape with
  | .string => [n.content]
  | .template => n.quasis
  | .object => n.children.filterMap trueKey?
  | _ => []

/-- The expressions whose class strings an expression passes on. -/
def passed (isHelper : Span → Bool) (n : Node) : List Node :=
  if n.kind == .parenthesized then n.children.head?.toList
  else match n.bareShape with
    | .array => n.children
    | .call =>
      if (n.child? .callee).any fun f => isHelper f.span then
        (n.children.filter (·.role == .arguments)).flatMap children
      else []
    | .ternary => n.children.filter fun c => c.role == .consequence || c.role == .alternative
    | .concat | .logical => n.children.filter fun c => c.role == .left || c.role == .right
    | _ => []

variable {isHelper isHelper' : Span → Bool} {n m c : Node}

theorem bareShape_parenthesized (h : n.kind = .parenthesized) : n.bareShape = .other := by
  simp only [bareShape, h]

/-- The class strings of an expression are its own, then those that it passes on. -/
theorem classSpans_step (isHelper : Span → Bool) (n : Node) : n.classSpans isHelper =
    n.ownSpans ++ (n.passed isHelper).flatMap (classSpans isHelper) := by
  rw [classSpans_eq, ownSpans, passed]
  split
  · rename_i hk
    rw [bareShape_parenthesized (beq_iff_eq.mp hk)]
    cases n.children.head? <;> simp
  · cases n.bareShape with
    | string | template | array | other => simp
    | object => simp [List.filterMap_eq_flatMap_toList]
    | call =>
      dsimp only
      split
      · rw [flatMap_filter, List.nil_append, ← List.flatMap_assoc]
      · rfl
    | ternary | concat | logical =>
      dsimp only
      rw [flatMap_filter, List.nil_append]

theorem mem_inside_of_passed (h : c ∈ n.passed isHelper) : c ∈ n.inside := by
  unfold passed at h
  split at h
  · exact mem_inside_of_mem_children (List.mem_of_head? (Option.mem_toList.mp h))
  · split at h
    · exact mem_inside_of_mem_children h
    · split at h
      · exact arguments_inside h
      · cases h
    · exact kept_inside h
    · exact kept_inside h
    · exact kept_inside h
    · cases h

/-! ### Other helpers -/

/-- What an expression passes on is a matter of the helpers for a call alone. -/
theorem passed_congr
    (h : n.bareShape = .call → ∀ f ∈ n.child? .callee, isHelper f.span = isHelper' f.span) :
    n.passed isHelper = n.passed isHelper' := by
  unfold passed
  split
  · rfl
  · cases hshape : n.bareShape with
    | call =>
      cases hf : n.child? .callee with
      | none => rfl
      | some f =>
        dsimp only
        rw [Option.any_some, Option.any_some, h hshape f hf]
    | string | template | array | object | ternary | concat | logical | other => rfl

/-- A call by a name that is no helper passes nothing on. -/
theorem passed_eq_nil (hshape : n.bareShape = .call) {f : Node} (hf : n.child? .callee = some f)
    (hname : isHelper f.span = false) : n.passed isHelper = [] := by
  have hk : ¬(n.kind == .parenthesized) = true := kind_ne_parenthesized (by simp [hshape])
  rw [passed, if_neg hk, hshape, hf]
  simp [hname]

/-- With more helpers the same is read and perhaps more. -/
theorem classSpans_sublist (h : ∀ f, isHelper f → isHelper' f) (n : Node) :
    (n.classSpans isHelper).Sublist (n.classSpans isHelper') := by
  induction n using inside_induction with
  | step n ih =>
    rw [classSpans_step isHelper, classSpans_step isHelper']
    refine List.Sublist.append (List.Sublist.refl _) ?_
    by_cases hsame : n.passed isHelper = n.passed isHelper'
    · rw [hsame]
      exact joins_sublist.flatMap fun c hc => ih c (mem_inside_of_passed hc)
    · -- the two differ, so it is a call, and the name is known to the second one only
      have hcall : ¬(n.bareShape = .call →
          ∀ f ∈ n.child? .callee, isHelper f.span = isHelper' f.span) := mt passed_congr hsame
      push Not at hcall
      obtain ⟨hshape, f, hf, hne⟩ := hcall
      have hname : isHelper f.span = false := by
        cases hknown : isHelper f.span with
        | false => rfl
        | true => exact absurd (by rw [hknown, h _ hknown]) hne
      rw [passed_eq_nil hshape hf hname]
      exact List.nil_sublist _

/-! ### Where the reading comes to -/

/-- The expressions that are come to when the class strings of one are read. -/
inductive Reached (isHelper : Span → Bool) (n : Node) : Node → Prop
  | start : Reached isHelper n n
  | passed {m c : Node} (front : Reached isHelper n m) (next : c ∈ m.passed isHelper) :
      Reached isHelper n c

theorem Reached.trans (hc : c ∈ n.passed isHelper) (h : Reached isHelper c m) :
    Reached isHelper n m := by
  induction h with
  | start => exact .passed .start hc
  | passed _ next ih => exact .passed ih next

/-- Helpers that agree on the calls that are come to let the same through. -/
theorem classSpans_congr (h : ∀ m, Reached isHelper n m → m.bareShape = .call →
      ∀ f ∈ m.child? .callee, isHelper f.span = isHelper' f.span) :
    n.classSpans isHelper = n.classSpans isHelper' := by
  induction n using inside_induction with
  | step n ih =>
    rw [classSpans_step isHelper, classSpans_step isHelper', ← passed_congr (h n .start)]
    congr 1
    refine List.flatMap_congr fun c hc => ?_
    exact ih c (mem_inside_of_passed hc) fun m hm => h m (.trans hc hm)

theorem mem_preorder_of_reached (h : Reached isHelper n m) : m ∈ n.preorder := by
  induction h with
  | start => exact mem_preorder_self n
  | passed _ next ih =>
    exact mem_preorder_trans ih (mem_preorder.mpr (.inr (mem_inside_of_passed next)))

end TokenLint.Source.Node

namespace TokenLint.SourceFile

open Source

/-- When the class strings of an expression are read with some helpers, a call by a name is come
to. -/
def ComesToCall (file : SourceFile) (helpers : List String) (n : Node) (name : String) : Prop :=
  ∃ m f, Node.Reached (fun s => helpers.contains (file.slice s)) n m ∧ m.bareShape = .call ∧
    m.child? .callee = some f ∧ file.nodeText f = name

/-- Of two lists of helpers the longer one lets at least as much through. Which names are in them
settles what they let through, and of these only the names of calls that are come to. -/
theorem classStrings_helpers (file : SourceFile) (n : Node) (helpers helpers' : List String) :
    (helpers ⊆ helpers' →
      (file.classStrings helpers n).Sublist (file.classStrings helpers' n)) ∧
    ((∀ name, name ∈ helpers ↔ name ∈ helpers') →
      file.classStrings helpers n = file.classStrings helpers' n) ∧
    ∀ name, ¬file.ComesToCall helpers n name →
      (∀ other, other ≠ name → (other ∈ helpers ↔ other ∈ helpers')) →
      file.classStrings helpers n = file.classStrings helpers' n := by
  have hsame : (∀ name, file.ComesToCall helpers n name → (name ∈ helpers ↔ name ∈ helpers')) →
      file.classStrings helpers n = file.classStrings helpers' n := fun h => by
    rw [classStrings, classStrings, Node.classSpans_congr fun m hm hshape f hf => ?_]
    have hiff := h _ ⟨m, f, hm, hshape, hf, rfl⟩
    rw [Bool.eq_iff_iff, List.contains_iff_mem, List.contains_iff_mem]
    exact hiff
  refine ⟨fun hsub => ?_, fun h => hsame fun name _ => h name, fun name hnone h => ?_⟩
  · refine List.Sublist.map _ (Node.classSpans_sublist (fun s hs => ?_) n)
    rw [List.contains_iff_mem] at hs ⊢
    exact hsub hs
  · refine hsame fun other hother => h other ?_
    rintro rfl
    exact hnone hother

/-- A call in the arguments of a call. -/
def nested : SourceFile := .parse "cn('p-1',cx('p-2'))"

/-- The outer call. -/
def nestedCall : Node := (nested.root.preorder.find? (·.kind == .call)).getD nested.root

theorem nested_helpers :
    nested.classStrings ["cn"] nestedCall = ["p-1"] ∧
    nested.classStrings ["cx", "cn"] nestedCall = ["p-1", "p-2"] ∧
    ["cn"] ⊆ ["cx", "cn"] ∧
    (nested.classStrings ["cn"] nestedCall).Sublist
      (nested.classStrings ["cx", "cn"] nestedCall) ∧
    (∀ name, name ∈ ["cx", "cn"] ↔ name ∈ ["cn", "cx", "cn"]) ∧
    nested.classStrings ["cx", "cn"] nestedCall =
      nested.classStrings ["cn", "cx", "cn"] nestedCall ∧
    ¬nested.ComesToCall ["cn"] nestedCall "clsx" ∧
    (∀ other, other ≠ "clsx" → (other ∈ ["cn"] ↔ other ∈ ["clsx", "cn"])) ∧
    nested.classStrings ["cn"] nestedCall = nested.classStrings ["clsx", "cn"] nestedCall := by
  have hsub : ["cn"] ⊆ ["cx", "cn"] := by simp
  have hnames : ∀ name, name ∈ ["cx", "cn"] ↔ name ∈ ["cn", "cx", "cn"] := by simp
  have hother : ∀ other, other ≠ "clsx" → (other ∈ ["cn"] ↔ other ∈ ["clsx", "cn"]) := by
    simp +contextual
  have hnone : ¬nested.ComesToCall ["cn"] nestedCall "clsx" := by
    rintro ⟨m, f, hm, hshape, hf, hname⟩
    have hall : ∀ m ∈ nestedCall.preorder, ∀ f ∈ m.child? .callee, nested.nodeText f ≠ "clsx" := by
      decide +kernel
    exact hall m (Node.mem_preorder_of_reached hm) f hf hname
  exact ⟨by decide +kernel, by decide +kernel, hsub, (classStrings_helpers _ _ _ _).1 hsub, hnames,
    (classStrings_helpers _ _ _ _).2.1 hnames, hnone, hother,
    (classStrings_helpers _ _ _ _).2.2 "clsx" hnone hother⟩

end TokenLint.SourceFile
