import Mathlib.Data.List.Basic
import TokenLint.Path

/-!
# Components of joined paths

What a join leads along is seen from the components of its two sides: an absolute path is its own,
any other adds its steps to the components of the base. Of the path a leading `.` is lost, unless
the base is empty.
-/
namespace TokenLint

namespace Text

theorem splitOn_ne_nil (sep : Char) (cs : List Char) : splitOn sep cs ≠ [] := by
  cases cs with
  | nil => exact List.cons_ne_nil _ _
  | cons c cs =>
    rw [splitOn]
    split
    · exact List.cons_ne_nil _ _
    · split <;> exact List.cons_ne_nil _ _

/-- A character that is no separator belongs to the first piece. -/
theorem splitOn_cons_of_ne {sep c : Char} (h : c ≠ sep) (cs : List Char) :
    ∃ piece pieces, splitOn sep cs = piece :: pieces ∧
      splitOn sep (c :: cs) = (c :: piece) :: pieces := by
  obtain ⟨piece, pieces, hcs⟩ := List.exists_cons_of_ne_nil (splitOn_ne_nil sep cs)
  refine ⟨piece, pieces, hcs, ?_⟩
  rw [splitOn, if_neg (by simpa using h), hcs]

theorem splitOn_append (sep : Char) (as bs : List Char) :
    splitOn sep (as ++ sep :: bs) = splitOn sep as ++ splitOn sep bs := by
  induction as with
  | nil => simp [splitOn]
  | cons c cs ih =>
    by_cases hc : c = sep
    · subst hc
      simp [splitOn, ih]
    · obtain ⟨piece, pieces, hcs, hsplit⟩ := splitOn_cons_of_ne hc cs
      obtain ⟨piece', pieces', hcs', hsplit'⟩ := splitOn_cons_of_ne hc (cs ++ sep :: bs)
      rw [ih, hcs, List.cons_append, List.cons.injEq] at hcs'
      obtain ⟨rfl, rfl⟩ := hcs'
      rw [List.cons_append, hsplit, hsplit', List.cons_append]

theorem splitOn_of_not_mem {sep : Char} {cs : List Char} (h : sep ∉ cs) :
    splitOn sep cs = [cs] := by
  induction cs with
  | nil => rfl
  | cons c cs ih =>
    obtain ⟨hc, hcs⟩ := not_or.mp fun hor => h (List.mem_cons.mpr hor)
    obtain ⟨piece, pieces, hsplit, hcons⟩ := splitOn_cons_of_ne (Ne.symm hc) cs
    rw [ih hcs] at hsplit
    obtain ⟨rfl, rfl⟩ := List.cons.inj hsplit
    exact hcons

/-- A text is put together again of its pieces, with the separators between them. -/
theorem intercalate_splitOn (sep : Char) (cs : List Char) :
    [sep].intercalate (splitOn sep cs) = cs := by
  induction cs with
  | nil => rfl
  | cons c cs ih =>
    obtain ⟨piece, pieces, hsplit⟩ := List.exists_cons_of_ne_nil (splitOn_ne_nil sep cs)
    by_cases hc : c = sep
    · rw [splitOn, if_pos (by simpa using hc), hsplit, List.intercalate_cons_cons, ← hsplit, ih, hc]
      rfl
    · rw [splitOn, if_neg (by simpa using hc), hsplit]
      rw [hsplit] at ih
      cases pieces with
      | nil => simpa using ih
      | cons next pieces =>
        rw [List.intercalate_cons_cons] at ih ⊢
        simpa using ih

theorem not_mem_of_mem_splitOn {sep : Char} {cs piece : List Char} (h : piece ∈ splitOn sep cs) :
    sep ∉ piece := by
  induction cs generalizing piece with
  | nil =>
    obtain rfl := List.mem_singleton.mp h
    exact List.not_mem_nil
  | cons c cs ih =>
    by_cases hc : c = sep
    · rw [splitOn, if_pos (by simpa using hc)] at h
      rcases List.mem_cons.mp h with rfl | h
      · exact List.not_mem_nil
      · exact ih h
    · obtain ⟨first, pieces, hsplit, hcons⟩ := splitOn_cons_of_ne hc cs
      rw [hcons] at h
      rw [hsplit] at ih
      rcases List.mem_cons.mp h with rfl | h
      · exact List.not_mem_cons_of_ne_of_not_mem (Ne.symm hc) (ih List.mem_cons_self)
      · exact ih (List.mem_cons_of_mem first h)

end Text

namespace Path

theorem segments_append (as bs : List Char) :
    segments (as ++ '/' :: bs) = segments as ++ segments bs := by
  rw [segments, Text.splitOn_append, List.filter_append, segments, segments]

/-- The steps of a path: its components but the one in front. -/
def steps (cs : List Char) : List Component := (segments cs).filterMap component?

theorem steps_append (as bs : List Char) : steps (as ++ '/' :: bs) = steps as ++ steps bs := by
  rw [steps, segments_append, List.filterMap_append, steps, steps]

theorem componentsOf_eq (cs : List Char) : componentsOf cs = front cs ++ steps cs := rfl

def Component.isStep : Component → Bool
  | parent => true
  | normal _ => true
  | _ => false

theorem isStep_of_mem_steps {cs : List Char} {c : Component} (h : c ∈ steps cs) : c.isStep := by
  obtain ⟨segment, -, h⟩ := List.mem_filterMap.mp h
  unfold component? at h
  split at h
  · cases h
  · split at h
    · obtain rfl := Option.some.inj h
      rfl
    · obtain rfl := Option.some.inj h
      rfl

/-- Of a path that is not empty the front is told by the first segment. -/
theorem front_cons (c : Char) (cs : List Char) : front (c :: cs) =
    if c = '/' then [.root] else if c = '.' ∧ cs.head?.all (· == '/') then [.current] else [] := by
  by_cases hslash : c = '/'
  · rw [if_pos hslash, hslash, front]
  · rw [if_neg hslash]
    by_cases hdot : c = '.'
    · subst hdot
      cases cs with
      | nil => rfl
      | cons d ds =>
        by_cases hd : d = '/'
        · subst hd
          rfl
        · have hnone : front ('.' :: d :: ds) = [] :=
            front.eq_4 _ (by simp) (by simp) (by simp [hd])
          rw [hnone, if_neg (by simp [hd])]
    · rw [if_neg (by simp [hdot]),
        front.eq_4 _ (by simp [hslash]) (by simp [hdot]) (by simp [hdot])]

theorem front_cases (cs : List Char) :
    front cs = [.root] ∧ cs.head? = some '/' ∨
      front cs = [.current] ∧ cs.head? ≠ some '/' ∨ front cs = [] ∧ cs.head? ≠ some '/' := by
  cases cs with
  | nil => exact .inr (.inr ⟨rfl, by simp⟩)
  | cons c cs =>
    rw [front_cons, List.head?_cons]
    split
    · rename_i hslash
      exact .inl ⟨rfl, by rw [hslash]⟩
    · rename_i hslash
      split
      · exact .inr (.inl ⟨rfl, by simpa using hslash⟩)
      · exact .inr (.inr ⟨rfl, by simpa using hslash⟩)

/-- The steps are told from the components. -/
theorem filter_componentsOf (cs : List Char) : (componentsOf cs).filter (·.isStep) = steps cs := by
  have hsteps : (steps cs).filter (·.isStep) = steps cs :=
    List.filter_eq_self.mpr fun c hc => isStep_of_mem_steps hc
  rw [componentsOf_eq, List.filter_append, hsteps]
  rcases front_cases cs with ⟨h, -⟩ | ⟨h, -⟩ | ⟨h, -⟩ <;> rw [h] <;> rfl

/-- A path is absolute when its components begin at the root. -/
theorem head?_componentsOf (cs : List Char) :
    (componentsOf cs).head? = some .root ↔ cs.head? = some '/' := by
  rw [componentsOf_eq]
  rcases front_cases cs with ⟨h, hhead⟩ | ⟨h, hhead⟩ | ⟨h, hhead⟩
  · simp [h, hhead]
  · simp [h, hhead]
  · rw [h, List.nil_append]
    refine iff_of_false (fun hroot => ?_) hhead
    have hstep := isStep_of_mem_steps (List.mem_of_head? hroot)
    cases hstep

/-- Only the empty path has no components. -/
theorem componentsOf_eq_nil {cs : List Char} : componentsOf cs = [] ↔ cs = [] := by
  refine ⟨fun h => ?_, fun h => by rw [h]; rfl⟩
  obtain ⟨hfront, hsteps⟩ := List.append_eq_nil_iff.mp h
  cases cs with
  | nil => rfl
  | cons c cs =>
    have hc : c ≠ '/' := by
      rintro rfl
      cases hfront
    -- The first segment is no component only where it is the `.` that counts in front.
    obtain ⟨piece, pieces, hcs, hsplit⟩ := Text.splitOn_cons_of_ne hc cs
    have hsegment : component? (c :: piece) = none := by
      rw [segments, hsplit, List.filter_cons_of_pos rfl] at hsteps
      exact List.filterMap_eq_nil_iff.mp hsteps _ List.mem_cons_self
    have hdot : c = '.' ∧ piece = [] := by
      unfold component? at hsegment
      split at hsegment
      · rename_i hdot
        simpa using hdot
      · split at hsegment <;> cases hsegment
    obtain ⟨rfl, rfl⟩ := hdot
    cases cs with
    | nil => cases hfront
    | cons d ds =>
      by_cases hd : d = '/'
      · subst hd
        cases hfront
      · obtain ⟨piece, pieces, -, hsplit⟩ := Text.splitOn_cons_of_ne hd ds
        rw [hcs] at hsplit
        cases hsplit

/-! ### Joins -/

variable {base base' path path' : String}

theorem isAbsolute_congr (h : components path = components path') :
    isAbsolute path = isAbsolute path' := by
  have hhead : path.toList.head? = some '/' ↔ path'.toList.head? = some '/' := by
    rw [← head?_componentsOf, ← head?_componentsOf]
    exact iff_of_eq (congrArg (fun cs => cs.head? = some Component.root) h)
  rw [isAbsolute, isAbsolute, Bool.eq_iff_iff, beq_iff_eq, beq_iff_eq]
  exact hhead

/-- What is put behind a slash does not change how a path begins. -/
theorem front_append {as : List Char} (h : as ≠ []) (bs : List Char) :
    front (as ++ '/' :: bs) = front as := by
  obtain ⟨c, cs, rfl⟩ := List.exists_cons_of_ne_nil h
  have hhead : (cs ++ '/' :: bs).head?.all (· == '/') = cs.head?.all (· == '/') := by
    cases cs <;> rfl
  rw [List.cons_append, front_cons, front_cons, hhead]

/-- What is put behind a slash adds its steps to a base that is not empty. -/
theorem components_slash (hbase : base ≠ "") (path : String) :
    components (base ++ "/" ++ path) = components base ++ steps path.toList := by
  have hne : base.toList ≠ [] := fun h => hbase (String.toList_inj.mp h)
  have hjoin : (base ++ "/" ++ path).toList = base.toList ++ '/' :: path.toList := by
    simp [String.toList_append]
  rw [components, hjoin, componentsOf_eq, front_append hne, steps_append, ← List.append_assoc]
  rfl

/-- A relative path adds its steps to a base that is not empty. -/
theorem components_join (hbase : base ≠ "") (hpath : isAbsolute path = false) :
    components (join base path) = components base ++ steps path.toList := by
  have hempty : base.isEmpty = false := by simpa using hbase
  rw [join, hpath, if_neg Bool.false_ne_true, hempty, Bool.false_or]
  split
  · rename_i hslash
    obtain ⟨init, hinit⟩ := List.getLast?_eq_some_iff.mp (beq_iff_eq.mp hslash)
    have hjoin : (base ++ path).toList = init ++ '/' :: path.toList := by
      rw [String.toList_append, hinit, List.append_assoc]
      rfl
    have hfront : front (init ++ '/' :: path.toList) = front base.toList := by
      rw [hinit]
      cases init with
      | nil => rfl
      | cons c cs => rw [front_append (by simp), front_append (by simp)]
    have hsteps : steps base.toList = steps init := by
      rw [hinit, steps_append, show steps [] = [] from rfl, List.append_nil]
    rw [components, hjoin, componentsOf_eq, hfront, steps_append, ← hsteps, ← List.append_assoc]
    rfl
  · exact components_slash hbase path

/-- A join is seen from the components of its sides. -/
theorem components_join_congr (hbase : components base = components base')
    (hpath : components path = components path') :
    components (join base path) = components (join base' path') := by
  have hempty : base = "" ↔ base' = "" := by
    have hnil : ∀ s : String, components s = [] ↔ s = "" := fun s =>
      componentsOf_eq_nil.trans String.toList_eq_nil_iff
    rw [← hnil, ← hnil, hbase]
  have habsolute := isAbsolute_congr hpath
  cases hpath' : isAbsolute path' with
  | true =>
    rw [hpath'] at habsolute
    rwa [join, join, if_pos habsolute, if_pos hpath']
  | false =>
    rw [hpath'] at habsolute
    by_cases hb : base = ""
    · have hjoin : ∀ p, isAbsolute p = false → join "" p = p := fun p hp => by simp [join, hp]
      rw [hb, hempty.mp hb, hjoin path habsolute, hjoin path' hpath', hpath]
    · have hsteps : steps path.toList = steps path'.toList := by
        rw [← filter_componentsOf, ← filter_componentsOf]
        exact congrArg _ hpath
      rw [components_join hb habsolute, components_join (fun h => hb (hempty.mpr h)) hpath', hbase,
        hsteps]

end Path
end TokenLint
