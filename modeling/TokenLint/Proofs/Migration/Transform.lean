import TokenLint.Migration
import TokenLint.Proofs.FileTree.Put

/-!
# One codemod over one file

What a step reads is the text of one file, and all that it may change is that file. A dry step
changes nothing. From this follows what a list of steps does: which files it changes at some
point is settled by the texts before the first step, whether or not the steps are dry.
-/
namespace TokenLint

/-- The text that a codemod leaves of another. -/
def Codemod.revised (c : Codemod) (text : String) : String := (c.revise? text).getD text

/-- A codemod that revises a text changes it. -/
theorem Codemod.isSome_revise? (c : Codemod) (text : String) :
    (c.revise? text).isSome = decide (c.revised text ≠ text) := by
  have hne : ∀ t, c.revise? text = some t → t ≠ text := by
    intro t h
    unfold Codemod.revise? at h
    dsimp only at h
    split at h
    · cases h
    · rename_i hsame
      rw [← Option.some.inj h]
      simp only [Bool.or_eq_true, not_or] at hsame
      simpa using hsame.2
  unfold revised
  cases h : c.revise? text with
  | none => simp
  | some t => simpa using hne t h

namespace Migration

/-- What a codemod reports of a file with a text, or without one. -/
def report (c : Codemod) (names : List String) : Option String → Outcome
  | none => ⟨c.name, slashPath names, false, some missingSource⟩
  | some text => ⟨c.name, slashPath names, decide (c.revised text ≠ text), none⟩

variable {c : Codemod} {tree : FileTree} {names path : List String}

theorem textAt?_eq_some {text : String} : textAt? tree names = some text ↔
    names ≠ [] ∧ tree.fileAt? names = some (.text text) := by
  cases names with
  | nil => simp [textAt?]
  | cons n ns =>
    rw [textAt?, FileTree.fileAt?]
    cases tree.get? (n :: ns) with
    | none => simp
    | some t =>
      cases t with
      | directory es => simp [FileTree.text, Except.toOption]
      | file content => cases content <;> simp [FileTree.text, Except.toOption]

/-- Trees with the same file in a place have the same text there. -/
theorem textAt?_congr {tree' : FileTree} (h : tree'.fileAt? names = tree.fileAt? names) :
    textAt? tree' names = textAt? tree names := by
  refine Option.ext fun text => ?_
  rw [textAt?_eq_some, textAt?_eq_some, h]

theorem transform_outcome (dry : Bool) (c : Codemod) (tree : FileTree) (names : List String) :
    (transform dry c tree names).2 = report c names (textAt? tree names) := by
  unfold transform
  dsimp only
  cases textAt? tree names with
  | none => rfl
  | some text =>
    rw [report, ← c.isSome_revise? text]
    cases h : c.revise? text with
    | none => simp only [h, Option.isSome_none]
    | some revised => simp only [h, Option.isSome_some]

/-- A dry step writes nothing. -/
theorem transform_dry (c : Codemod) (tree : FileTree) (names : List String) :
    (transform true c tree names).1 = tree := by
  unfold transform
  dsimp only
  split
  · rfl
  · split
    · rfl
    · rfl

/-- A step leaves every file but its own as it was, and its own if that has no text. -/
theorem fileAt?_transform_of_ne {dry : Bool}
    (h : path ≠ names ∨ textAt? tree names = none) :
    (transform dry c tree names).1.fileAt? path = tree.fileAt? path := by
  unfold transform
  dsimp only
  split
  · rfl
  · rename_i text htext
    split
    · rfl
    · rename_i revised _
      have hne : path ≠ names := h.resolve_right (by rw [htext]; simp)
      cases dry with
      | true => rfl
      | false => exact FileTree.fileAt?_put_file (textAt?_eq_some.mp htext).2 _ hne

theorem textAt?_transform_of_ne {dry : Bool} (h : path ≠ names) :
    textAt? (transform dry c tree names).1 path = textAt? tree path :=
  textAt?_congr (fileAt?_transform_of_ne (Or.inl h))

/-- A step that is not dry leaves the revised text. -/
theorem textAt?_transform_self :
    textAt? (transform false c tree names).1 names = (textAt? tree names).map c.revised := by
  unfold transform
  dsimp only
  cases htext : textAt? tree names with
  | none => exact htext
  | some text =>
    dsimp only
    have hne := (textAt?_eq_some.mp htext).1
    unfold Codemod.revised
    cases h : c.revise? text with
    | none =>
      dsimp only
      rw [htext, Option.map_some, h]
      rfl
    | some revised =>
      dsimp only
      rw [Option.map_some, h, Option.getD_some]
      exact textAt?_eq_some.mpr ⟨hne, FileTree.fileAt?_put_self tree names _⟩

/-! ## Lists of steps -/

theorem transformAll_cons (dry : Bool) (tree : FileTree) (c : Codemod) (names : List String)
    (rest : List (Codemod × List String)) :
    transformAll dry tree ((c, names) :: rest) =
      ((transformAll dry (transform dry c tree names).1 rest).1,
        report c names (textAt? tree names) ::
          (transformAll dry (transform dry c tree names).1 rest).2) := by
  rw [← transform_outcome dry]
  rfl

theorem transformAll_append (dry : Bool) (first second : List (Codemod × List String)) :
    ∀ tree : FileTree, transformAll dry tree (first ++ second) =
      ((transformAll dry (transformAll dry tree first).1 second).1,
        (transformAll dry tree first).2 ++
          (transformAll dry (transformAll dry tree first).1 second).2) := by
  induction first with
  | nil => exact fun tree => rfl
  | cons p first ih =>
    intro tree
    obtain ⟨c, names⟩ := p
    rw [List.cons_append, transformAll_cons, transformAll_cons, ih, List.cons_append]

theorem transformAll_dry (tree : FileTree) (pairs : List (Codemod × List String)) :
    (transformAll true tree pairs).1 = tree := by
  induction pairs with
  | nil => rfl
  | cons p pairs ih =>
    obtain ⟨c, names⟩ := p
    rw [transformAll_cons, transform_dry, ih]

/-- Some step changes a file exactly when some step would change the text that the file has before
all of them: the first one that changes a file still reads that text. -/
theorem exists_applied_iff (dry : Bool) (pairs : List (Codemod × List String)) (file : String) :
    ∀ tree : FileTree, (∃ o ∈ (transformAll dry tree pairs).2, o.applied ∧ o.file = file) ↔
      ∃ p ∈ pairs, slashPath p.2 = file ∧
        ∃ text, textAt? tree p.2 = some text ∧ p.1.revised text ≠ text := by
  induction pairs with
  | nil => exact fun tree => by simp [transformAll]
  | cons p pairs ih =>
    intro tree
    obtain ⟨c, names⟩ := p
    have hhead : (report c names (textAt? tree names)).applied = true ↔
        ∃ text, textAt? tree names = some text ∧ c.revised text ≠ text := by
      cases textAt? tree names <;> simp [report]
    have hfile : (report c names (textAt? tree names)).file = slashPath names := by
      cases textAt? tree names <;> rfl
    rw [transformAll_cons, List.exists_mem_cons_iff, List.exists_mem_cons_iff, hhead, hfile, ih]
    by_cases hnow : ∃ text, textAt? tree names = some text ∧ c.revised text ≠ text
    · -- the file of this step is settled, and the texts of the others are unchanged
      by_cases hsame : slashPath names = file
      · exact ⟨fun _ => Or.inl ⟨hsame, hnow⟩, fun _ => Or.inl ⟨hnow, hsame⟩⟩
      · refine or_congr and_comm (exists_congr fun q => ?_)
        refine and_congr_right fun _ => and_congr_right fun hq => ?_
        have hne : q.2 ≠ names := fun h => hsame (by rw [← h, hq])
        rw [textAt?_transform_of_ne hne]
    · -- nothing was written
      have hkept : ∀ q : List String,
          textAt? (transform dry c tree names).1 q = textAt? tree q := by
        intro q
        by_cases hq : q = names
        · subst hq
          cases dry with
          | true => rw [transform_dry]
          | false =>
            rw [textAt?_transform_self]
            cases htext : textAt? tree q with
            | none => rfl
            | some text =>
              have hrevised : c.revised text = text := by
                refine Decidable.byContradiction fun h => hnow ⟨text, htext, h⟩
              rw [Option.map_some, hrevised]
        · exact textAt?_transform_of_ne hq
      simp only [hkept, hnow, false_and, and_false, false_or]

end Migration
end TokenLint
