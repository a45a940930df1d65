import TokenLint.FileTree
import TokenLint.Proofs.Path.Components

/-!
# Names joined by slashes

A name is a segment that is no step to the same or the parent directory. Of names with slashes
between them a path is made, and they are read back from it.
-/
namespace TokenLint

open Text

/-- What an entry of a directory may be called. -/
def IsName (name : String) : Prop :=
  name ≠ "" ∧ '/' ∉ name.toList ∧ name ≠ "." ∧ name ≠ ".."

instance (name : String) : Decidable (IsName name) := inferInstanceAs (Decidable (_ ∧ _ ∧ _ ∧ _))

/-- Names are read back from their path. -/
theorem splitOn_slashPath {names : List String} (hne : names ≠ []) (h : ∀ n ∈ names, IsName n) :
    splitOn '/' (slashPath names).toList = names.map String.toList := by
  induction names with
  | nil => exact absurd rfl hne
  | cons n names ih =>
    obtain ⟨hn, hnames⟩ := List.forall_mem_cons.mp h
    cases names with
    | nil => simpa [slashPath] using splitOn_of_not_mem hn.2.1
    | cons m names =>
      have hjoin : (slashPath (n :: m :: names)).toList =
          n.toList ++ '/' :: (slashPath (m :: names)).toList := by
        simp [slashPath, String.intercalate_cons_cons]
      rw [hjoin, splitOn_append, splitOn_of_not_mem hn.2.1, ih (List.cons_ne_nil m names) hnames]
      rfl

/-- A path of names goes down by each of them. -/
theorem steps_slashPath {names : List String} (h : ∀ n ∈ names, IsName n) :
    Path.steps (slashPath names).toList = names.map .normal := by
  by_cases hne : names = []
  · subst hne
    rfl
  · rw [Path.steps, Path.segments, splitOn_slashPath hne h]
    clear hne
    induction names with
    | nil => rfl
    | cons n names ih =>
      obtain ⟨⟨hempty, -, hdot, hdots⟩, hnames⟩ := List.forall_mem_cons.mp h
      have hcomponent : Path.component? n.toList = some (.normal n) := by
        have hne : ∀ m : String, n ≠ m → n.toList ≠ m.toList :=
          fun m hm h => hm (String.toList_inj.mp h)
        rw [Path.component?, if_neg (by simpa using hne "." hdot),
          if_neg (by simpa using hne ".." hdots), String.ofList_toList]
      rw [List.map_cons, List.filter_cons_of_pos (by simpa using hempty),
        List.filterMap_cons_some hcomponent, ih hnames, List.map_cons]

theorem slashPath_inj {as bs : List String} (has : ∀ n ∈ as, IsName n) (hbs : ∀ n ∈ bs, IsName n)
    (h : slashPath as = slashPath bs) : as = bs := by
  refine List.map_injective_iff.mpr (fun _ _ => Path.Component.normal.inj) ?_
  rw [← steps_slashPath has, ← steps_slashPath hbs, h]

/-- No name is empty, so that a path of names begins with no slash. -/
theorem isAbsolute_slashPath {names : List String} (h : ∀ n ∈ names, IsName n) :
    Path.isAbsolute (slashPath names) = false := by
  by_cases hne : names = []
  · subst hne
    rfl
  · rw [Path.isAbsolute, beq_eq_false_iff_ne]
    intro hslash
    obtain ⟨cs, hcs⟩ := List.head?_eq_some_iff.mp hslash
    have hsplit := splitOn_slashPath hne h
    obtain ⟨n, ns, rfl⟩ := List.exists_cons_of_ne_nil hne
    rw [hcs, splitOn, if_pos (beq_self_eq_true '/')] at hsplit
    have hn : n.toList = [] := (List.cons.inj hsplit).1.symm
    exact (h n List.mem_cons_self).1 (String.toList_eq_nil_iff.mp hn)

end TokenLint
