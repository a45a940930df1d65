import TokenLint.NamedImport
import TokenLint.Proofs.Edit.Spread
import TokenLint.Proofs.Source.Clear

/-!
# The edit of an import

There is at most one. It falls in the clause of an import, which holds no elements, or between the
statements of the file. So it is apart from every element.
-/
namespace TokenLint.NamedImport

open Source Text EditPlan

variable {file : SourceFile} {module : String} {names : List String} {ed : Edit}

/-! ### How an import is extended or declared -/

/-- The names that are not among those that braces list. -/
def missing (file : SourceFile) (named : Node) (names : List String) : List String :=
  let existing := (named.children.filter (·.kind == .importSpecifier)).filterMap (boundName? file)
  names.filter (!existing.contains ·)

/-- Braces get the missing names behind their last specifier, or are written anew. -/
theorem extendNamed_cases {named : Node} (h : extendNamed file named names = .extended ed) :
    (∃ last, (named.children.filter (·.kind == .importSpecifier)).getLast? = some last ∧
      ed = .insert last.stop (", " ++ listed (missing file named names))) ∨
    (named.children.filter (·.kind == .importSpecifier)).getLast? = none ∧
      ed = ⟨named.span, "\x7b " ++ listed (missing file named names) ++ " \x7d"⟩ := by
  unfold extendNamed at h
  dsimp only at h
  split at h
  · cases h
  · split at h
    · rename_i last hlast
      exact .inl ⟨last, hlast, (Outcome.extended.inj h).symm⟩
    · rename_i hnone
      exact .inr ⟨hnone, (Outcome.extended.inj h).symm⟩

/-- A clause is extended in its braces, or by braces behind its default. -/
theorem extendClause_cases {clause : Node} (h : extendClause file clause names = .extended ed) :
    (∃ named, clause.childOf? .namedImports = some named ∧
      extendNamed file named names = .extended ed) ∨
    ∃ default, clause.childOf? .namedImports = none ∧
      clause.childOf? .identifier = some default ∧
      ed = .insert default.stop (", \x7b " ++ listed names ++ " \x7d") := by
  unfold extendClause at h
  split at h
  · rename_i named hnamed
    exact .inl ⟨named, hnamed, h⟩
  · cases h
  · rename_i default hnone _ hdefault
    exact .inr ⟨default, hnone, hdefault, (Outcome.extended.inj h).symm⟩
  · cases h

/-- An import that is extended is one of values from the module, and its clause is extended. -/
theorem clause_of_extendImport {n : Node} (h : extendImport file module names n = .extended ed) :
    module? file n = some module ∧ isTypeOnly n = false ∧
      ∃ clause, n.childOf? .importClause = some clause ∧
        extendClause file clause names = .extended ed := by
  unfold extendImport at h
  split at h
  · cases h
  · rename_i hsuits
    obtain ⟨hmodule, hplain⟩ : module? file n = some module ∧ isTypeOnly n = false := by
      simpa using hsuits
    split at h
    · cases h
    · rename_i clause hclause
      exact ⟨hmodule, hplain, clause, hclause, h⟩

/-- An import is declared behind the last one there is, else behind the directives that come
first, else at the front. -/
theorem declare_cases (file : SourceFile) (module : String) (names : List String)
    (statements : List Node) :
    (∃ last, (statements.filter (·.kind == .importStatement)).getLast? = some last ∧
      declare file module names statements =
        .insert last.stop ("\n" ++ declaration module names (isEnded file last))) ∨
    statements.filter (·.kind == .importStatement) = [] ∧
      ((∃ last, (statements.takeWhile isDirective).getLast? = some last ∧
        declare file module names statements =
          .insert last.stop ("\n\n" ++ declaration module names true)) ∨
      statements.takeWhile isDirective = [] ∧ declare file module names statements =
        .insert 0 (declaration module names true ++ "\n\n")) := by
  unfold declare
  split
  · rename_i last hlast
    exact .inl ⟨last, hlast, rfl⟩
  · rename_i hnone
    refine .inr ⟨List.getLast?_eq_none_iff.mp hnone, ?_⟩
    split
    · rename_i last hlast
      exact .inl ⟨last, hlast, rfl⟩
    · rename_i hfirst
      exact .inr ⟨List.getLast?_eq_none_iff.mp hfirst, rfl⟩

/-! ### Where the edit is -/

/-- What is replaced is a node, or what is inserted comes behind one. -/
def EditsAt (m : Node) (span : Span) : Prop := span = m.span ∨ span = ⟨m.stop, m.stop⟩

theorem editsAt_extendNamed {named : Node}
    (h : extendNamed file named names = .extended ed) :
    ∃ m ∈ named.preorder, EditsAt m ed.span := by
  rcases extendNamed_cases h with ⟨last, hlast, rfl⟩ | ⟨-, rfl⟩
  · have hmem := (List.mem_filter.mp (List.mem_of_getLast? hlast)).1
    exact ⟨last, Node.mem_preorder_of_mem_children hmem, Or.inr rfl⟩
  · exact ⟨named, Node.mem_preorder_self named, Or.inl rfl⟩

theorem editsAt_extendClause {clause : Node}
    (h : extendClause file clause names = .extended ed) :
    ∃ m ∈ clause.preorder, EditsAt m ed.span := by
  rcases extendClause_cases h with ⟨named, hnamed, h⟩ | ⟨default, -, hdefault, rfl⟩
  · have hmem := (Node.mem_children_of_childOf? hnamed).1
    obtain ⟨m, hm, hat⟩ := editsAt_extendNamed h
    exact ⟨m, Node.mem_preorder_trans (Node.mem_preorder_of_mem_children hmem) hm, hat⟩
  · have hmem := (Node.mem_children_of_childOf? hdefault).1
    exact ⟨default, Node.mem_preorder_of_mem_children hmem, Or.inr rfl⟩

theorem editsAt_extendImport {n : Node}
    (h : extendImport file module names n = .extended ed) :
    ∃ clause ∈ n.children, clause.kind = .importClause ∧
      ∃ m ∈ clause.preorder, EditsAt m ed.span := by
  obtain ⟨-, -, clause, hclause, h⟩ := clause_of_extendImport h
  obtain ⟨hmem, hkind⟩ := Node.mem_children_of_childOf? hclause
  exact ⟨clause, hmem, hkind, editsAt_extendClause h⟩

/-- An import that is extended is one of those that are tried. -/
theorem mem_of_extendFirst {ns : List Node}
    (h : extendFirst file module names ns = .extended ed) :
    ∃ n ∈ ns, extendImport file module names n = .extended ed := by
  induction ns with
  | nil => cases h
  | cons n ns ih =>
    rw [extendFirst] at h
    split at h
    · obtain ⟨m, hm, hext⟩ := ih h
      exact ⟨m, List.mem_cons_of_mem n hm, hext⟩
    · exact ⟨n, List.mem_cons_self, h⟩

/-- A declaration goes behind a statement or to the front. -/
theorem declare_span (file : SourceFile) (module : String) (names : List String)
    (statements : List Node) :
    (∃ m ∈ statements, (declare file module names statements).span = ⟨m.stop, m.stop⟩) ∨
      (declare file module names statements).span = ⟨0, 0⟩ := by
  rcases declare_cases file module names statements with
    ⟨last, hlast, hedit⟩ | ⟨-, ⟨last, hlast, hedit⟩ | ⟨-, hedit⟩⟩
  · have hmem := (List.mem_filter.mp (List.mem_of_getLast? hlast)).1
    exact .inl ⟨last, hmem, by rw [hedit]; rfl⟩
  · have hmem := (List.takeWhile_prefix _).subset (List.mem_of_getLast? hlast)
    exact .inl ⟨last, hmem, by rw [hedit]; rfl⟩
  · exact .inr (by rw [hedit]; rfl)

/-- A range of the text that no element reaches into. -/
structure ClearOfElements (file : SourceFile) (span : Span) : Prop where
  fits : IsRange file.text.toList span
  clear : file.root.Clear span

theorem clear_extendImport (hf : file.WellFormed) {n : Node} (hn : n ∈ file.root.children)
    (hk : n.kind = .importStatement) (h : extendImport file module names n = .extended ed) :
    ClearOfElements file ed.span := by
  obtain ⟨clause, hclause, hckind, m, hm, hat⟩ := editsAt_extendImport h
  have hnroot := Node.mem_preorder_of_mem_children hn
  have hcroot := Node.mem_preorder_child hnroot hclause
  have hmroot := Node.mem_preorder_trans hcroot hm
  have hmnest := hf.nests m hmroot
  have hmalign := hf.aligned m hmroot
  have hmwithin := Node.within_of_mem_preorder (Node.nests_of_mem hf.nests hcroot) hm
  have hspan : IsRange file.text.toList ed.span ∧ ed.span.Within clause.span := by
    rcases hat with hat | hat
    · rw [hat]
      exact ⟨hmalign.isRange hmnest, hmwithin⟩
    · rw [hat]
      exact ⟨hmalign.stop.isRange, hmnest.stop_within.trans hmwithin⟩
  -- the clause has no elements, so it is clear at the import and at the root
  have hno := (hf.shaped clause hcroot).imported hckind
  have hclear := Node.clear_child (Node.nests_of_mem hf.nests hnroot) hclause hno
  have hwithin := (hf.nests n hnroot).child_within hclause
  have hroot := Node.clear_of_child hf.nests hn (by rw [hk]; decide) hwithin hclear
  exact ⟨hspan.1, hroot.mono hspan.2⟩

theorem clear_declare (hf : file.WellFormed) :
    ClearOfElements file (declare file module names file.root.children).span := by
  rcases declare_span file module names file.root.children with ⟨m, hm, hspan⟩ | hspan
  · have hstop := (hf.aligned m (Node.mem_preorder_of_mem_children hm)).stop
    rw [hspan]
    exact ⟨hstop.isRange, Node.clear_child_stop hf.nests hm⟩
  · rw [hspan]
    exact ⟨(isBoundary_zero _).isRange, fun l _ _ => Or.inl (Nat.zero_le _)⟩

/-- At most one edit is made, and no element reaches into it. -/
theorem ensure_clear (hf : file.WellFormed) (module : String) (names : List String) :
    (ensure file module names).length ≤ 1 ∧
      ∀ e ∈ ensure file module names, ClearOfElements file e.span := by
  unfold ensure
  dsimp only
  split
  · exact ⟨Nat.zero_le _, by simp⟩
  · rename_i e he
    refine ⟨Nat.le_refl _, fun a ha => ?_⟩
    obtain rfl := List.mem_singleton.mp ha
    obtain ⟨n, hn, hext⟩ := mem_of_extendFirst he
    obtain ⟨hchild, hk⟩ := List.mem_filter.mp hn
    exact clear_extendImport hf hchild (by simpa using hk) hext
  · refine ⟨Nat.le_refl _, fun a ha => ?_⟩
    obtain rfl := List.mem_singleton.mp ha
    exact clear_declare hf

end TokenLint.NamedImport
