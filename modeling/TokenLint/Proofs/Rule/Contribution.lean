import Mathlib.Data.List.Forall2
import TokenLint.Proofs.Rule.ClassString

/-!
# What an expression contributes to a class list

The class strings of an expression, told form by form: a literal has its own, and of the other
forms some pass on those of their parts, one part behind the other. Every expression has one such
list, and it is the one that is read.
-/
namespace TokenLint.Source.Node

/-- The class strings that an expression can contribute in a file with some merge helpers. -/
inductive Contributes (file : SourceFile) (helpers : List String) : Node → List String → Prop
  | string {n : Node} (shape : n.bareShape = .string) :
      Contributes file helpers n [file.slice n.content]
  | template {n : Node} (shape : n.bareShape = .template) :
      Contributes file helpers n (n.quasis.map file.slice)
  | object {n : Node} (shape : n.bareShape = .object) :
      Contributes file helpers n ((n.children.filterMap trueKey?).map file.slice)
  | parentheses {n c : Node} {ss : List String} (kind : n.kind = .parenthesized)
      (first : n.children.head? = some c) (inner : Contributes file helpers c ss) :
      Contributes file helpers n ss
  | array {n : Node} {parts : List (List String)} (shape : n.bareShape = .array)
      (elements : List.Forall₂ (Contributes file helpers) n.children parts) :
      Contributes file helpers n parts.flatten
  /-- The call of a merge helper by its name. -/
  | helper {n f : Node} {parts : List (List String)} (shape : n.bareShape = .call)
      (callee : n.child? .callee = some f) (known : file.nodeText f ∈ helpers)
      (given : List.Forall₂ (Contributes file helpers)
        ((n.children.filter (·.role == .arguments)).flatMap children) parts) :
      Contributes file helpers n parts.flatten
  | ternary {n : Node} {parts : List (List String)} (shape : n.bareShape = .ternary)
      (arms : List.Forall₂ (Contributes file helpers)
        (n.children.filter fun c => c.role == .consequence || c.role == .alternative) parts) :
      Contributes file helpers n parts.flatten
  /-- A concatenation, or an operator that yields one of its operands. -/
  | operator {n : Node} {parts : List (List String)}
      (shape : n.bareShape = .concat ∨ n.bareShape = .logical)
      (operands : List.Forall₂ (Contributes file helpers)
        (n.children.filter fun c => c.role == .left || c.role == .right) parts) :
      Contributes file helpers n parts.flatten
  | emptyParentheses {n : Node} (kind : n.kind = .parenthesized) (empty : n.children = []) :
      Contributes file helpers n []
  | unknownCall {n : Node} (shape : n.bareShape = .call)
      (unknown : ∀ f ∈ n.child? .callee, file.nodeText f ∉ helpers) : Contributes file helpers n []
  | other {n : Node} (kind : n.kind ≠ .parenthesized) (shape : n.bareShape = .other) :
      Contributes file helpers n []

variable {file : SourceFile} {helpers : List String} {n : Node}

theorem flatMap_filter {α β : Type} (keep : α → Bool) (f : α → List β) (xs : List α) :
    (xs.flatMap fun x => if keep x then f x else []) = (xs.filter keep).flatMap f := by
  induction xs with
  | nil => rfl
  | cons x xs ih =>
    rw [List.flatMap_cons, ih, List.filter_cons]
    split <;> rfl

/-- What is read of an expression is read of some of its parts. -/
theorem classStrings_eq (n : Node) : file.classStrings helpers n =
    if n.kind == .parenthesized then
      (n.children.head?.map (file.classStrings helpers)).getD []
    else match n.bareShape with
      | .string => [file.slice n.content]
      | .template => n.quasis.map file.slice
      | .array => n.children.flatMap (file.classStrings helpers)
      | .object => (n.children.filterMap trueKey?).map file.slice
      | .call =>
        if (n.child? .callee).any fun f => helpers.contains (file.nodeText f) then
          ((n.children.filter (·.role == .arguments)).flatMap children).flatMap
            (file.classStrings helpers)
        else []
      | .ternary => (n.children.filter fun c =>
          c.role == .consequence || c.role == .alternative).flatMap (file.classStrings helpers)
      | .concat | .logical => (n.children.filter fun c =>
          c.role == .left || c.role == .right).flatMap (file.classStrings helpers)
      | .other => [] := by
  rw [SourceFile.classStrings, classSpans_eq]
  split
  · cases n.children.head? <;> rfl
  · cases n.bareShape with
    | string | template | other => rfl
    | object => rw [List.filterMap_eq_flatMap_toList]
    | array => exact List.map_flatMap
    | call =>
      dsimp only
      rw [apply_ite (List.map file.slice), flatMap_filter, ← List.flatMap_assoc, List.map_flatMap]
      rfl
    | ternary | concat | logical =>
      dsimp only
      rw [flatMap_filter, List.map_flatMap]
      rfl

theorem forall₂_iff {α β : Type} {R : α → β → Prop} {f : α → β} {xs : List α} {ys : List β}
    (h : ∀ x ∈ xs, ∀ y, R x y ↔ f x = y) : List.Forall₂ R xs ys ↔ xs.map f = ys := by
  induction xs generalizing ys with
  | nil => simp [eq_comm]
  | cons x xs ih =>
    obtain ⟨hx, hxs⟩ := List.forall_mem_cons.mp h
    cases ys with
    | nil => simp
    | cons y ys => rw [List.forall₂_cons, hx, ih hxs, List.map_cons, List.cons.injEq]

theorem kind_ne_parenthesized (h : n.bareShape ≠ .other) : ¬(n.kind == .parenthesized) = true := by
  intro hk
  refine h ?_
  simp only [bareShape, beq_iff_eq.mp hk]

theorem kept_inside {keep : Node → Bool} {c : Node} (hc : c ∈ n.children.filter keep) :
    c ∈ n.inside :=
  mem_inside_of_mem_children (List.mem_filter.mp hc).1

theorem arguments_inside {c : Node}
    (hc : c ∈ (n.children.filter (·.role == .arguments)).flatMap children) : c ∈ n.inside := by
  obtain ⟨args, hargs, hc⟩ := List.mem_flatMap.mp hc
  exact mem_inside.mpr ⟨args, (List.mem_filter.mp hargs).1, mem_preorder_of_mem_children hc⟩

section Step

-- A call reads the children of its arguments, so the induction is on all nodes inside.
variable (ih : ∀ c ∈ n.inside, ∀ ss : List String,
  Contributes file helpers c ss ↔ file.classStrings helpers c = ss)
include ih

theorem forall₂_contributes_iff {ns : List Node} {parts : List (List String)}
    (hns : ∀ c ∈ ns, c ∈ n.inside) : List.Forall₂ (Contributes file helpers) ns parts ↔
      ns.map (file.classStrings helpers) = parts :=
  forall₂_iff fun c hc => ih c (hns c hc)

theorem classStrings_of_contributes {ss : List String} (h : Contributes file helpers n ss) :
    file.classStrings helpers n = ss := by
  rw [classStrings_eq]
  cases h with
  | parentheses kind first inner =>
    rw [kind, first]
    exact (ih _ (mem_inside_of_mem_children (List.mem_of_head? first)) _).mp inner
  | emptyParentheses kind empty => rw [kind, empty]; rfl
  | string shape | template shape | object shape =>
    rw [if_neg (kind_ne_parenthesized (by simp [shape])), shape]
  | array shape elements =>
    rw [if_neg (kind_ne_parenthesized (by simp [shape])), shape,
      ← (forall₂_contributes_iff ih fun c => mem_inside_of_mem_children).mp elements]
    rfl
  | helper shape callee known given =>
    rw [if_neg (kind_ne_parenthesized (by simp [shape])), shape, callee,
      ← (forall₂_contributes_iff ih fun c => arguments_inside).mp given]
    simp [known, List.flatMap_def]
  | unknownCall shape unknown =>
    rw [if_neg (kind_ne_parenthesized (by simp [shape])), shape]
    refine if_neg ?_
    cases hcallee : n.child? .callee with
    | none => simp
    | some f => simpa using unknown f hcallee
  | ternary shape arms =>
    rw [if_neg (kind_ne_parenthesized (by simp [shape])), shape,
      ← (forall₂_contributes_iff ih fun c => kept_inside).mp arms]
    rfl
  | operator shape operands =>
    have hne : n.bareShape ≠ .other := by rcases shape with h | h <;> simp [h]
    rw [if_neg (kind_ne_parenthesized hne),
      ← (forall₂_contributes_iff ih fun c => kept_inside).mp operands]
    rcases shape with h | h <;> rw [h] <;> rfl
  | other kind shape => rw [if_neg (by simpa using kind), shape]

theorem contributes_classStrings : Contributes file helpers n (file.classStrings helpers n) := by
  rw [classStrings_eq]
  split
  · rename_i hk
    have hkind : n.kind = .parenthesized := beq_iff_eq.mp hk
    cases hhead : n.children.head? with
    | none => exact .emptyParentheses hkind (List.head?_eq_none_iff.mp hhead)
    | some c =>
      have hc := mem_inside_of_mem_children (List.mem_of_head? hhead)
      exact .parentheses hkind hhead ((ih c hc _).mpr rfl)
  · rename_i hk
    cases hshape : n.bareShape with
    | string => exact .string hshape
    | template => exact .template hshape
    | object => exact .object hshape
    | array =>
      exact .array hshape
        ((forall₂_contributes_iff ih fun c => mem_inside_of_mem_children).mpr rfl)
    | call =>
      dsimp only
      split
      · rename_i hknown
        obtain ⟨f, hf, hname⟩ := (Option.any_eq_true _ _).mp hknown
        exact .helper hshape hf (by simpa using hname)
          ((forall₂_contributes_iff ih fun c => arguments_inside).mpr rfl)
      · rename_i hunknown
        refine .unknownCall hshape fun f hf hname => hunknown ?_
        rw [hf]
        simpa using hname
    | ternary => exact .ternary hshape ((forall₂_contributes_iff ih fun c => kept_inside).mpr rfl)
    | concat =>
      exact .operator (.inl hshape) ((forall₂_contributes_iff ih fun c => kept_inside).mpr rfl)
    | logical =>
      exact .operator (.inr hshape) ((forall₂_contributes_iff ih fun c => kept_inside).mpr rfl)
    | other => exact .other (by simpa using hk) hshape

end Step

/-- An expression contributes what is read of it, and nothing else. -/
theorem contributes_iff {ss : List String} :
    Contributes file helpers n ss ↔ file.classStrings helpers n = ss := by
  induction n using inside_induction generalizing ss with
  | step n ih =>
    constructor
    · exact classStrings_of_contributes fun c hc ss => ih c hc
    · rintro rfl
      exact contributes_classStrings fun c hc ss => ih c hc

end TokenLint.Source.Node
