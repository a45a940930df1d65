import TokenLint.FileTree
import TokenLint.Proofs.Path.Components

/-!
# Looking up paths with the same components

Empty segments and `.` lead nowhere, but each asks for a directory. Where a name follows they do
not matter, so two paths with the same components that end in a name find the same.
-/
namespace TokenLint.FileTree

open TokenLint.Path

/-- A segment that leads somewhere else. -/
def leads (segment : List Char) : Bool := !(segment.isEmpty || segment == ['.'])

variable {t : FileTree}

/-- From what is no directory no segment can be followed. -/
theorem follow_of_not_directory {trail : List String}
    (h : ∀ es, t.get? trail.reverse ≠ some (.directory es)) {segments : List (List Char)}
    (hne : segments ≠ []) : t.follow trail segments = .error .notDirectory := by
  obtain ⟨segment, segments, rfl⟩ := List.exists_cons_of_ne_nil hne
  rw [follow]
  split
  · rename_i es hes
    exact absurd hes (h es)
  · rfl

/-- Segments that lead nowhere may be left out if the last one leads somewhere. -/
theorem follow_filter (segments : List (List Char)) : ∀ (trail : List String),
    (∀ last ∈ segments.getLast?, leads last) →
      t.follow trail segments = t.follow trail (segments.filter leads) := by
  induction segments with
  | nil => exact fun _ _ => rfl
  | cons segment segments ih =>
    intro trail hlast
    have hrest : ∀ last ∈ segments.getLast?, leads last := by
      intro last hmem
      refine hlast last ?_
      rw [List.getLast?_cons, hmem]
      rfl
    cases hleads : leads segment with
    | true =>
      rw [List.filter_cons_of_pos hleads, follow, follow]
      have hstep : (segment.isEmpty || segment == ['.']) = false := by
        simpa only [leads, Bool.not_eq_true'] using hleads
      simp only [hstep, ih _ hrest]
    | false =>
      have hstep : (segment.isEmpty || segment == ['.']) = true := by
        simpa only [leads, Bool.not_eq_false'] using hleads
      rw [List.filter_cons_of_neg (by rw [hleads]; decide)]
      by_cases hdir : ∃ es, t.get? trail.reverse = some (.directory es)
      · obtain ⟨es, hes⟩ := hdir
        rw [follow, hes]
        simp only [hstep, if_true]
        exact ih trail hrest
      · have hnone : ∀ es, t.get? trail.reverse ≠ some (.directory es) :=
          fun es hes => hdir ⟨es, hes⟩
        -- the last segment, which leads somewhere, is still to come
        have hmore : segments.filter leads ≠ [] := by
          cases hsegments : segments.getLast? with
          | none =>
            obtain rfl := List.getLast?_eq_none_iff.mp hsegments
            rw [hlast segment rfl] at hleads
            cases hleads
          | some last =>
            exact List.ne_nil_of_mem
              (List.mem_filter.mpr ⟨List.mem_of_getLast? hsegments, hrest last hsegments⟩)
        rw [follow_of_not_directory hnone (List.cons_ne_nil _ _),
          follow_of_not_directory hnone hmore]

/-- What a step was read from. -/
def segmentOf : Component → List Char
  | .parent => ['.', '.']
  | .normal name => name.toList
  | _ => []

/-- The segments that lead somewhere are told from the steps. -/
theorem filter_leads_splitOn (cs : List Char) :
    (Text.splitOn '/' cs).filter leads = (steps cs).map segmentOf := by
  have hmap : ∀ segments : List (List Char), segments.filter leads =
      ((segments.filter (!·.isEmpty)).filterMap component?).map segmentOf := by
    intro segments
    induction segments with
    | nil => rfl
    | cons segment segments ih =>
      cases segment with
      | nil => exact ih
      | cons c cs =>
        rw [List.filter_cons_of_pos (p := fun s : List Char => !s.isEmpty) rfl]
        by_cases hdot : c :: cs = ['.']
        · rw [hdot]
          exact ih
        · have hleads : leads (c :: cs) = true := by
            rw [leads, beq_eq_false_iff_ne.mpr hdot]
            rfl
          rw [List.filter_cons_of_pos hleads, ih]
          by_cases hparent : c :: cs = ['.', '.']
          · rw [hparent]
            rfl
          · have hcomponent : component? (c :: cs) = some (.normal (String.ofList (c :: cs))) := by
              rw [component?, if_neg (by simpa using hdot), if_neg (by simpa using hparent)]
            rw [List.filterMap_cons_some hcomponent, List.map_cons, segmentOf, String.toList_ofList]
  exact hmap _

/-- The last segment leads somewhere: the path ends in no slash and no `/.`. -/
def EndsInName (path : String) : Prop :=
  ∀ last ∈ (Text.splitOn '/' path.toList).getLast?, leads last

instance (path : String) : Decidable (EndsInName path) :=
  inferInstanceAs (Decidable (∀ last ∈ _, _))

theorem find_congr {p q : String} (h : components p = components q) (hp : EndsInName p)
    (hq : EndsInName q) : t.find p = t.find q := by
  have hsteps : steps p.toList = steps q.toList := by
    rw [← filter_componentsOf, ← filter_componentsOf]
    exact congrArg _ h
  have hlocate : t.locate p = t.locate q := by
    rw [locate, locate, follow_filter _ [] hp, follow_filter _ [] hq, filter_leads_splitOn,
      filter_leads_splitOn, hsteps]
  rw [find, find, hlocate]

end TokenLint.FileTree
