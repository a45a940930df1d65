import Mathlib.Data.List.Basic
import Mathlib.Data.List.Nodup
import Mathlib.Data.List.Pairwise
import TokenLint.Proofs.FileTree.Put
import TokenLint.Targets

/-!
# Well-formed trees of files

In a directory every name stands once, and the entries are in the order of their names. Then a
walk meets no file twice, and putting back what is there changes nothing.
-/
namespace TokenLint.FileTree

/-- Every directory of the tree has its entries in order, each name once. -/
inductive WellFormed : FileTree → Prop
  | file (c : Content) : WellFormed (.file c)
  | directory {es : List (String × FileTree)} (ordered : es.Pairwise (·.1 < ·.1))
      (entry : ∀ e ∈ es, WellFormed e.2) : WellFormed (.directory es)

variable {t : FileTree} {ns : List String}

theorem mem_of_lookup {n : String} {es : List (String × FileTree)}
    (h : es.lookup n = some t) : (n, t) ∈ es := by
  obtain ⟨before, after, rfl, -⟩ := List.lookup_eq_some_iff.mp h
  exact List.mem_append_right before List.mem_cons_self

theorem WellFormed.ordered (h : t.WellFormed) : t.entries.Pairwise (·.1 < ·.1) := by
  cases h with
  | file c => exact .nil
  | directory ordered entry => exact ordered

theorem WellFormed.child (h : t.WellFormed) {n : String} {child : FileTree}
    (hchild : t.entries.lookup n = some child) : child.WellFormed := by
  cases h with
  | file c => cases hchild
  | directory ordered entry => exact entry _ (mem_of_lookup hchild)

theorem WellFormed.get? (h : t.WellFormed) {u : FileTree} (hu : t.get? ns = some u) :
    u.WellFormed := by
  induction ns generalizing t with
  | nil =>
    rw [get?_nil] at hu
    rwa [← Option.some.inj hu]
  | cons n ns ih =>
    rw [get?_cons] at hu
    obtain ⟨child, hchild, hu⟩ := Option.bind_eq_some_iff.mp hu
    exact ih (h.child hchild) hu

/-- Setting an entry to what it is changes nothing. -/
theorem setEntry_lookup {n : String} {es : List (String × FileTree)}
    (ordered : es.Pairwise (·.1 < ·.1)) (h : es.lookup n = some t) : setEntry n t es = es := by
  induction es with
  | nil => cases h
  | cons e es ih =>
    obtain ⟨m, u⟩ := e
    obtain ⟨hfirst, hrest⟩ := List.pairwise_cons.mp ordered
    rw [List.lookup_cons] at h
    rw [setEntry]
    split at h
    · rename_i hm
      rw [if_pos hm, Option.some.inj h]
    · rename_i hm
      have hlt : m < n := hfirst (n, t) (mem_of_lookup h)
      have hnot : ¬ n < m := fun hnm => String.lt_irrefl _ (String.lt_trans hlt hnm)
      rw [if_neg (by rw [hm]; decide), if_neg hnot, ih hrest h]

/-- Putting back the tree that is there changes nothing. -/
theorem put_get? (h : t.WellFormed) {u : FileTree} (hu : t.get? ns = some u) :
    t.put ns u = t := by
  induction ns generalizing t with
  | nil =>
    rw [get?_nil] at hu
    rw [put_nil, Option.some.inj hu]
  | cons n ns ih =>
    rw [get?_cons] at hu
    obtain ⟨child, hchild, hu⟩ := Option.bind_eq_some_iff.mp hu
    rw [put_cons, hchild, Option.getD_some, ih (h.child hchild) hu,
      setEntry_lookup h.ordered hchild]
    cases t with
    | file c => cases hchild
    | directory es => rfl

/-- Setting an entry adds no other entries. -/
theorem mem_setEntry {n : String} {es : List (String × FileTree)} {e : String × FileTree}
    (h : e ∈ setEntry n t es) : e = (n, t) ∨ e ∈ es := by
  induction es with
  | nil => exact Or.inl (List.mem_singleton.mp h)
  | cons d es ih =>
    obtain ⟨m, u⟩ := d
    rw [setEntry] at h
    split at h
    · rename_i hm
      obtain rfl : n = m := by simpa using hm
      exact (List.mem_cons.mp h).imp_right (List.mem_cons_of_mem _)
    · split at h
      · exact List.mem_cons.mp h
      · rcases List.mem_cons.mp h with h | h
        · exact Or.inr (h ▸ List.mem_cons_self)
        · exact (ih h).imp_right (List.mem_cons_of_mem _)

theorem pairwise_setEntry {es : List (String × FileTree)} (ordered : es.Pairwise (·.1 < ·.1))
    (n : String) (t : FileTree) : (setEntry n t es).Pairwise (·.1 < ·.1) := by
  induction es with
  | nil => exact List.pairwise_singleton _ _
  | cons e es ih =>
    obtain ⟨m, u⟩ := e
    have hcons := List.pairwise_cons.mp ordered
    rw [setEntry]
    split
    · rename_i hm
      obtain rfl : n = m := by simpa using hm
      exact List.pairwise_cons.mpr hcons
    · rename_i hm
      split
      · rename_i hlt
        refine List.pairwise_cons.mpr ⟨fun d hd => ?_, ordered⟩
        rcases List.mem_cons.mp hd with rfl | hd
        · exact hlt
        · exact String.lt_trans hlt (hcons.1 d hd)
      · rename_i hnot
        refine List.pairwise_cons.mpr ⟨fun d hd => ?_, ih hcons.2⟩
        rcases mem_setEntry hd with rfl | hd
        · have hne : n ≠ m := by simpa using hm
          refine Decidable.byContradiction fun hmn => hne ?_
          exact String.le_antisymm (String.not_lt.mp hmn) (String.not_lt.mp hnot)
        · exact hcons.1 d hd

theorem wellFormed_empty : WellFormed empty := .directory .nil (by simp)

/-- Putting a well-formed tree into another keeps the order of every directory. -/
theorem WellFormed.put (h : t.WellFormed) {new : FileTree} (hnew : new.WellFormed)
    (ns : List String) : (t.put ns new).WellFormed := by
  induction ns generalizing t with
  | nil => rwa [put_nil]
  | cons n ns ih =>
    have hchild : ((t.entries.lookup n).getD empty).WellFormed := by
      cases hlookup : t.entries.lookup n with
      | none => exact wellFormed_empty
      | some child => exact h.child hlookup
    rw [put_cons]
    refine .directory (pairwise_setEntry h.ordered n _) fun e he => ?_
    rcases mem_setEntry he with rfl | he
    · exact ih hchild
    · cases h with
      | file c => cases he
      | directory ordered entry => exact entry e he

/-! ## Paths -/

/-- A path that is followed leads to something. -/
theorem isSome_get?_of_follow (steps : List (List Char)) : ∀ {trail : List String},
    (t.get? trail.reverse).isSome → t.follow trail steps = .ok ns → (t.get? ns).isSome := by
  induction steps with
  | nil =>
    intro trail htrail h
    rw [follow] at h
    rwa [← Except.ok.inj h]
  | cons step steps ih =>
    intro trail htrail h
    rw [follow] at h
    split at h
    · rename_i es hget
      split at h
      · exact ih htrail h
      · split at h
        · refine ih ?_ h
          cases trail with
          | nil => exact htrail
          | cons n trail =>
            rw [List.reverse_cons, get?_append] at htrail
            cases hparent : t.get? trail.reverse with
            | none => rw [hparent] at htrail; cases htrail
            | some parent => rw [List.tail_cons, hparent]; rfl
        · dsimp only at h
          split at h
          · cases h
          · rename_i child hchild
            refine ih ?_ h
            rw [List.reverse_cons, get?_append, hget, Option.bind_some, get?_cons, entries, hchild,
              Option.bind_some, get?_nil]
            rfl
    · cases h

theorem isSome_get?_of_locate {path : String} (h : t.locate path = .ok ns) :
    (t.get? ns).isSome := by
  refine isSome_get?_of_follow (Text.splitOn '/' path.toList) ?_ h
  rw [List.reverse_nil, get?_nil]
  rfl

/-! ## Walks -/

section Walk

variable {enter : List String → Bool → Bool}

/-- What holds of a tree when it holds of its entries holds of every tree. -/
theorem entry_induction {P : FileTree → Prop} (step : ∀ t, (∀ e ∈ t.entries, P e.2) → P t) :
    ∀ t, P t
  | .file c => step (.file c) (by simp [entries])
  | .directory es => step (.directory es) fun e (_ : e ∈ es) => entry_induction step e.2
termination_by t => sizeOf t
decreasing_by
  have := List.sizeOf_lt_of_mem ‹e ∈ es›
  cases e
  simp_all
  omega

theorem walkEntries_eq (trail : List String) (es : List (String × FileTree)) :
    walkEntries enter trail es = es.flatMap fun e =>
      if enter (trail ++ [e.1]) e.2.isDirectory then walk enter (trail ++ [e.1]) e.2 else [] := by
  induction es with
  | nil => rfl
  | cons e es ih => rw [walkEntries, ih, List.flatMap_cons]

/-- A walk stays below the place where it begins. -/
theorem prefix_of_mem_walk (t : FileTree) : ∀ {trail names : List String},
    names ∈ walk enter trail t → trail <+: names := by
  induction t using entry_induction with
  | step t ih =>
    intro trail names h
    cases t with
    | file c =>
      rw [walk, List.mem_singleton] at h
      subst h
      exact List.prefix_rfl
    | directory es =>
      rw [walk, walkEntries_eq] at h
      obtain ⟨e, he, h⟩ := List.mem_flatMap.mp h
      split at h
      · exact (List.prefix_append trail [e.1]).trans (ih e he h)
      · cases h

/-- No file is met twice. -/
theorem nodup_walk (h : t.WellFormed) : ∀ trail, (walk enter trail t).Nodup := by
  induction h with
  | file c =>
    intro trail
    rw [walk]
    exact List.nodup_singleton trail
  | @directory es ordered _ ih =>
    intro trail
    rw [walk, walkEntries_eq, List.nodup_flatMap]
    refine ⟨fun e he => ?_, ordered.imp fun {a b} hab => ?_⟩
    · split
      · exact ih e he (trail ++ [e.1])
      · exact List.nodup_nil
    · -- files in two entries differ in the name of the entry
      have hname : ∀ e : String × FileTree, ∀ names,
          names ∈ (if enter (trail ++ [e.1]) e.2.isDirectory then
            walk enter (trail ++ [e.1]) e.2 else []) → names[trail.length]? = some e.1 := by
        intro e names hnames
        split at hnames
        · obtain ⟨rest, rfl⟩ := prefix_of_mem_walk e.2 hnames
          simp
        · cases hnames
      intro names ha hb
      have heq := (hname a names ha).symm.trans (hname b names hb)
      rw [Option.some.inj heq] at hab
      exact String.lt_irrefl _ hab

end Walk
end TokenLint.FileTree

namespace TokenLint.Targets

theorem withoutRepeats_sublist (names : List (List String)) :
    (withoutRepeats names).Sublist names := by
  fun_induction withoutRepeats names with
  | case1 a b rest _ ih => exact ih.cons a
  | case2 a b rest _ ih => exact ih.cons_cons a
  | case3 short => exact List.Sublist.refl _

/-- Each target is collected once. -/
theorem nodup_collect (m : Targets) {tree : FileTree} (h : tree.WellFormed) :
    (m.collect tree).Nodup := by
  unfold collect
  refine (withoutRepeats_sublist _).nodup ?_
  exact (List.mergeSort_perm _ inOrder).nodup_iff.mpr ((FileTree.nodup_walk h []).filter _)

end TokenLint.Targets
