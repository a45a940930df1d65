import TokenLint.Proofs.FileTree.WellFormed
import TokenLint.Proofs.Path.Names

/-!
# What a walk meets

In a well-formed tree a walk meets just the files that can be looked up, as long as it enters
every directory on the way. The names on the way have no slashes, so that a path of names joined
by slashes tells them apart.
-/
namespace TokenLint

open Text

namespace FileTree

variable {t : FileTree}

/-- Every entry of the tree is called by a name. -/
inductive Named : FileTree → Prop
  | file (c : Content) : Named (.file c)
  | directory {es : List (String × FileTree)} (name : ∀ e ∈ es, IsName e.1)
      (entry : ∀ e ∈ es, Named e.2) : Named (.directory es)

theorem named_directory_iff {es : List (String × FileTree)} :
    (directory es).Named ↔ (∀ e ∈ es, IsName e.1) ∧ ∀ e ∈ es, e.2.Named := by
  refine ⟨fun h => ?_, fun h => .directory h.1 h.2⟩
  cases h with
  | directory name entry => exact ⟨name, entry⟩

theorem wellFormed_directory_iff {es : List (String × FileTree)} :
    (directory es).WellFormed ↔ es.Pairwise (·.1 < ·.1) ∧ ∀ e ∈ es, e.2.WellFormed := by
  refine ⟨fun h => ?_, fun h => .directory h.1 h.2⟩
  cases h with
  | directory ordered entry => exact ⟨ordered, entry⟩

section Decide

variable {P : FileTree → Prop} {Q : List (String × FileTree) → Prop} [DecidablePred Q]
  (file : ∀ c, P (.file c)) (directory : ∀ es, P (.directory es) ↔ Q es ∧ ∀ e ∈ es, P e.2)

mutual
/-- Decides what is asked of the entries of every directory. -/
def decideAll : (t : FileTree) → Decidable (P t)
  | .file c => .isTrue (file c)
  | .directory es =>
    have := decideEntries es
    decidable_of_iff (Q es ∧ ∀ e ∈ es, P e.2) (directory es).symm

def decideEntries : (es : List (String × FileTree)) → Decidable (∀ e ∈ es, P e.2)
  | [] => .isTrue (List.forall_mem_nil _)
  | (n, t) :: es =>
    have := decideAll t
    have := decideEntries es
    decidable_of_iff (P t ∧ ∀ e ∈ es, P e.2)
      (@List.forall_mem_cons _ (fun e => P e.2) (n, t) es).symm
end

end Decide

instance (t : FileTree) : Decidable t.Named :=
  decideAll .file (fun _ => named_directory_iff) t

instance (t : FileTree) : Decidable t.WellFormed :=
  decideAll .file (fun _ => wellFormed_directory_iff) t

theorem Named.of_mem (h : t.Named) {e : String × FileTree} (he : e ∈ t.entries) :
    IsName e.1 ∧ e.2.Named := by
  cases h with
  | file c => cases he
  | directory name entry => exact ⟨name e he, entry e he⟩

theorem Named.get? (h : t.Named) {names : List String} {u : FileTree}
    (hu : t.get? names = some u) : (∀ n ∈ names, IsName n) ∧ u.Named := by
  induction names generalizing t with
  | nil =>
    rw [get?_nil] at hu
    exact ⟨by simp, Option.some.inj hu ▸ h⟩
  | cons n ns ih =>
    rw [get?_cons] at hu
    obtain ⟨child, hchild, hu⟩ := Option.bind_eq_some_iff.mp hu
    obtain ⟨hn, hnamed⟩ := h.of_mem (mem_of_lookup hchild)
    obtain ⟨hns, hlast⟩ := ih hnamed hu
    exact ⟨List.forall_mem_cons.mpr ⟨hn, hns⟩, hlast⟩

theorem lookup_of_mem {es : List (String × FileTree)} (ordered : es.Pairwise (·.1 < ·.1))
    {e : String × FileTree} (h : e ∈ es) : es.lookup e.1 = some e.2 := by
  induction es with
  | nil => cases h
  | cons d es ih =>
    obtain ⟨hfirst, hrest⟩ := List.pairwise_cons.mp ordered
    rcases List.mem_cons.mp h with rfl | h
    · exact List.lookup_cons_self
    · have hne : e.1 ≠ d.1 := fun heq => String.lt_irrefl d.1 (heq ▸ hfirst e h)
      rw [List.lookup_cons, beq_eq_false_iff_ne.mpr hne]
      exact ih hrest h

/-- A walk goes on all the way along some names: it enters each directory on the way, and looks at
the file at the end. -/
def Enters (enter : List String → Bool → Bool) : List String → List String → Prop
  | _, [] => True
  | trail, n :: ns =>
    enter (trail ++ [n]) (!ns.isEmpty) = true ∧ Enters enter (trail ++ [n]) ns

/-- What the names from a file on lead to is nothing, and what no names lead to is no file. -/
theorem isDirectory_of_fileAt? {names : List String} {c : Content}
    (h : t.fileAt? names = some c) : t.isDirectory = !names.isEmpty := by
  cases names with
  | nil =>
    rw [fileAt?, get?_nil] at h
    cases t with
    | file d => rfl
    | directory es => cases h
  | cons n ns =>
    cases t with
    | file d =>
      rw [fileAt?, get?_file (List.cons_ne_nil n ns)] at h
      cases h
    | directory es => rfl

theorem fileAt?_cons {es : List (String × FileTree)} (ordered : es.Pairwise (·.1 < ·.1))
    {n : String} {ns : List String} {c : Content} :
    (directory es).fileAt? (n :: ns) = some c ↔ ∃ u, (n, u) ∈ es ∧ u.fileAt? ns = some c := by
  rw [fileAt?, get?_cons, entries]
  constructor
  · intro h
    cases hlookup : es.lookup n with
    | none =>
      rw [hlookup] at h
      cases h
    | some u =>
      rw [hlookup] at h
      exact ⟨u, mem_of_lookup hlookup, h⟩
  · rintro ⟨u, hmem, hu⟩
    rw [lookup_of_mem ordered hmem]
    exact hu

/-- A walk meets the files that it can go all the way to. -/
theorem mem_walk_iff {enter : List String → Bool → Bool} (h : t.WellFormed) :
    ∀ {trail path : List String}, path ∈ walk enter trail t ↔
      ∃ names, path = trail ++ names ∧ (∃ c, t.fileAt? names = some c) ∧
        Enters enter trail names := by
  induction h with
  | file c =>
    intro trail path
    rw [walk, List.mem_singleton]
    constructor
    · rintro rfl
      exact ⟨[], (List.append_nil path).symm, ⟨c, rfl⟩, trivial⟩
    · rintro ⟨names, rfl, ⟨d, hd⟩, -⟩
      have hfile := isDirectory_of_fileAt? hd
      obtain rfl : names = [] := by simpa [isDirectory] using hfile
      exact List.append_nil trail
  | @directory es ordered _ ih =>
    intro trail path
    rw [walk, walkEntries_eq, List.mem_flatMap]
    constructor
    · rintro ⟨⟨n, u⟩, he, hpath⟩
      split at hpath
      · rename_i henter
        obtain ⟨names, rfl, ⟨c, hc⟩, hnames⟩ := (ih _ he).mp hpath
        rw [isDirectory_of_fileAt? hc] at henter
        refine ⟨n :: names, by simp, ⟨c, ?_⟩, henter, hnames⟩
        exact (fileAt?_cons ordered).mpr ⟨u, he, hc⟩
      · cases hpath
    · rintro ⟨names, rfl, ⟨c, hc⟩, henters⟩
      cases names with
      | nil => cases hc
      | cons n ns =>
        obtain ⟨u, he, hu⟩ := (fileAt?_cons ordered).mp hc
        obtain ⟨hfirst, hlater⟩ := henters
        refine ⟨(n, u), he, ?_⟩
        rw [if_pos (by rw [isDirectory_of_fileAt? hu]; exact hfirst)]
        exact (ih _ he).mpr ⟨ns, by simp, ⟨c, hu⟩, hlater⟩

theorem Named.of_fileAt? (h : t.Named) {names : List String} {c : Content}
    (hc : t.fileAt? names = some c) : ∀ n ∈ names, IsName n := by
  rw [fileAt?] at hc
  split at hc
  · rename_i d hget
    exact (h.get? hget).1
  · cases hc

theorem Named.of_mem_walk (h : t.Named) (hw : t.WellFormed)
    {enter : List String → Bool → Bool} {names : List String} (hnames : names ∈ walk enter [] t) :
    ∀ n ∈ names, IsName n := by
  obtain ⟨names, rfl, ⟨c, hc⟩, -⟩ := (mem_walk_iff hw).mp hnames
  exact h.of_fileAt? hc

end FileTree
end TokenLint
