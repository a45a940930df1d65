import TokenLint.Proofs.NamedImport.Extended
import TokenLint.Proofs.NamedImport.Quoted

/-!
# Names bound once

The edit of an import leaves every binding as it was and adds one for each name that the import
which was chosen does not list, or for all names where one is declared. So each name is bound once
afterwards exactly when that import lists those of the names, and only those, that were bound
before.
-/
namespace TokenLint.NamedImport

open Source Text

/-! ### The import that is chosen -/

section
variable {file : SourceFile} {module : String} {names : List String}

/-- The imports are tried in order up to the target. -/
theorem extendFirst_eq (file : SourceFile) (module : String) (names : List String) :
    extendFirst file module names (file.root.children.filter isImport) =
      ((target? file module names).map (extendImport file module names)).getD .unsuitable := by
  rw [target?]
  induction file.root.children with
  | nil => rfl
  | cons n ns ih =>
    by_cases himport : isImport n = true
    · rw [List.filter_cons_of_pos himport, extendFirst]
      cases hext : extendImport file module names n with
      | unsuitable =>
        have hnot : ¬canHold file module names n = true := by simp [canHold, hext]
        rw [List.find?_cons_of_neg hnot]
        exact ih
      | complete | extended e =>
        have hholds : canHold file module names n = true := by simp [canHold, himport, hext]
        rw [List.find?_cons_of_pos hholds, Option.map_some, hext]
        rfl
    · have hnot : ¬canHold file module names n = true := by simp [canHold, himport]
      rw [List.filter_cons_of_neg himport, List.find?_cons_of_neg hnot]
      exact ih

/-- What is done to the target decides what is edited. -/
theorem ensure_eq (file : SourceFile) (module : String) (names : List String) :
    ensure file module names =
      match ((target? file module names).map (extendImport file module names)).getD
        .unsuitable with
      | .complete => []
      | .extended e => [e]
      | .unsuitable => [declare file module names file.root.children] := by
  rw [← extendFirst_eq]
  rfl

/-- Without an import that can hold the names, one is declared. -/
theorem ensure_eq_declare (h : target? file module names = none) :
    ensure file module names = [declare file module names file.root.children] := by
  rw [ensure_eq, h]
  rfl

/-- With nothing to do, the target lists all names. -/
theorem added_eq_nil {n : Node} (h : extendImport file module names n = .complete) :
    names.filter (!(listedInImport file n).contains ·) = [] := by
  unfold extendImport at h
  split at h
  · cases h
  · split at h
    · cases h
    · rename_i clause hclause
      unfold extendClause at h
      split at h
      case h_1 braces hbraces =>
        have hlisted : (braces.children.filter (·.kind == .importSpecifier)).filterMap
            (boundName? file) = listedIn file braces := rfl
        unfold extendNamed at h
        simp only [hlisted] at h
        split at h
        · rename_i hempty
          rw [listedInImport, hclause, Option.map_some, Option.getD_some, listedInClause, hbraces]
          exact List.isEmpty_iff.mp hempty
        · split at h <;> cases h
      all_goals cases h

theorem apply_nil (text : String) : EditPlan.apply [] text = text := by
  simp [EditPlan.apply, EditPlan.ordered, EditPlan.splice]

theorem revised_of_edit {e : Edit} (h : ensure file module names = [e]) :
    revised file module names = ⟨EditPlan.apply [e] file.text,
      stretch e.shift file.root (revisedStatements file module names e)⟩ := by
  rw [revised, h]

theorem edited_revised (hf : file.WellFormed) {e : Edit} (h : ensure file module names = [e]) :
    Edited file (revised file module names) e := by
  have hfits := ((ensure_clear hf module names).2 e (by rw [h]; exact .head _)).fits
  exact ⟨hf, hfits, by rw [revised_of_edit h]⟩

theorem isImport_of_target {n : Node} (h : target? file module names = some n) :
    isImport n = true := by
  have hholds := List.find?_some h
  rw [canHold, Bool.and_eq_true] at hholds
  exact hholds.1

/-- A target lists all the names already, or is extended. -/
theorem ensure_of_target {n : Node} (h : target? file module names = some n) :
    extendImport file module names n = .complete ∧ ensure file module names = [] ∨
      ∃ e, extendImport file module names n = .extended e ∧ ensure file module names = [e] := by
  have hholds := List.find?_some h
  rw [ensure_eq, h, Option.map_some, Option.getD_some]
  cases hext : extendImport file module names n with
  | unsuitable =>
    rw [canHold, hext, Bool.and_eq_true] at hholds
    cases hholds.2
  | complete => exact .inl ⟨rfl, rfl⟩
  | extended e => exact .inr ⟨e, rfl, rfl⟩

/-- The statements around a target that is extended. -/
theorem around_extended {n : Node} {e : Edit} (htarget : target? file module names = some n)
    (hensure : ensure file module names = [e]) :
    ∃ pre post, file.root.children = pre ++ n :: post ∧
      (∀ x ∈ pre, canHold file module names x = false) ∧
      (revised file module names).root.children =
        pre ++ ([revisedImport file names e.shift n] ++ post.map (Node.move e.shift)) := by
  obtain ⟨pre, post, hcs, hpre, hsplice⟩ := exists_splice_firstOf htarget
  refine ⟨pre, post, hcs, hpre, ?_⟩
  rw [revised_of_edit hensure, children_stretch, revisedStatements, htarget, Option.isSome_some,
    if_pos rfl, hsplice]

/-! ### Declarations -/

/-- An import that is declared behind the last one binds the names, behind what that one binds. -/
theorem inserted_declare_behind {file' : SourceFile} {e : Edit} (h : Edited file file' e)
    (htarget : target? file module names = none) {last : Node}
    (hlast : (file.root.children.filter isImport).getLast? = some last)
    (hedit : e = .insert last.stop ("\n" ++ declaration module names (isEnded file last))) :
    Inserted (names.map (valueBinding (some module))) (bindings file)
      ((revisedStatements file module names e).flatMap (statementBindings file')) := by
  have hspan : e.span = ⟨last.stop, last.stop⟩ := by rw [hedit]; rfl
  have hadds : e.text = "\n" ++ declaration module names (isEnded file last) := by rw [hedit]; rfl
  have hnew : [declarationAt (last.stop + 1) module names (isEnded file last)].flatMap
      (statementBindings file') = names.map (valueBinding (some module)) := by
    have hat := h.text_at
    rw [hspan, hadds] at hat
    rw [List.flatMap_singleton]
    exact bindings_declarationAt hat.append.2
  obtain ⟨pre, post, hcs, hsplice⟩ := exists_splice_lastOf hlast
  have hany : file.root.children.any isImport = true :=
    List.any_eq_true.mpr ⟨last, List.mem_filter.mp (List.mem_of_getLast? hlast)⟩
  rw [revisedStatements, htarget, Option.isSome_none, if_neg (by decide), if_pos hany, hsplice,
    bindings]
  exact (h.inserted_behind (Node.mem_preorder_self file.root) hcs hspan
    (fun _ _ => statementBindings_kept) hnew).2

/-- Nothing but an import binds a name, wherever it is moved. -/
theorem statementBindings_move_of_not_import (g : SourceFile) (f : Nat → Nat) {x : Node}
    (hx : isImport x = false) : statementBindings g (x.move f) = [] := by
  rw [isImport] at hx
  rw [statementBindings, isImport, Node.kind_move, hx]
  rfl

theorem statementBindings_of_not_import (g : SourceFile) {x : Node} (hx : isImport x = false) :
    statementBindings g x = [] := by
  rw [← statementBindings_move_of_not_import g id hx, Node.move_id]

/-- Where there is no import, a declaration stands behind the directives at the top. -/
theorem declaration_at_top {file' : SourceFile} {e : Edit} (h : Edited file file' e)
    (hplace : (∃ last, (file.root.children.takeWhile isDirective).getLast? = some last ∧
        e = .insert last.stop ("\n\n" ++ declaration module names true)) ∨
      file.root.children.takeWhile isDirective = [] ∧
        e = .insert 0 (declaration module names true ++ "\n\n")) :
    At file' (((file.root.children.takeWhile isDirective).getLast?.map fun n => n.stop + 2).getD 0)
      (declaration module names true) := by
  have hat := h.text_at
  rcases hplace with ⟨last, hlast, hedit⟩ | ⟨hnil, hedit⟩
  · have hat : At file' last.stop ("\n\n" ++ declaration module names true) := by
      rw [hedit] at hat
      exact hat
    rw [hlast]
    exact hat.append.2
  · have hat : At file' 0 (declaration module names true ++ "\n\n") := by
      rw [hedit] at hat
      exact hat
    rw [hnil]
    exact hat.append.1

/-- Where there is no import, the one that is declared binds the names, and nothing else does. -/
theorem inserted_declare_top {file' : SourceFile} {e : Edit}
    (htarget : target? file module names = none)
    (hnot : ∀ x ∈ file.root.children, isImport x = false)
    (hat : At file' (((file.root.children.takeWhile isDirective).getLast?.map
      fun n => n.stop + 2).getD 0) (declaration module names true)) :
    Inserted (names.map (valueBinding (some module))) (bindings file)
      ((revisedStatements file module names e).flatMap (statementBindings file')) := by
  have hbefore : file.root.children.flatMap (statementBindings file) = [] :=
    List.flatMap_eq_nil_iff.mpr fun x hx => statementBindings_of_not_import file (hnot x hx)
  have hfirst : (file.root.children.takeWhile isDirective).flatMap (statementBindings file') = [] :=
    List.flatMap_eq_nil_iff.mpr fun x hx =>
      statementBindings_of_not_import file' (hnot x ((List.takeWhile_prefix _).subset hx))
  have hrest : ((file.root.children.dropWhile isDirective).map (Node.move e.shift)).flatMap
      (statementBindings file') = [] := by
    rw [List.flatMap_map]
    exact List.flatMap_eq_nil_iff.mpr fun x hx => statementBindings_move_of_not_import file' e.shift
      (hnot x ((List.dropWhile_suffix _).subset hx))
  have hany : ¬file.root.children.any isImport = true := by simpa using hnot
  rw [revisedStatements, htarget, Option.isSome_none, if_neg (by decide), if_neg hany, bindings,
    hbefore, List.flatMap_append, List.flatMap_cons, hfirst, hrest,
    bindings_declarationAt hat]
  exact ⟨[], [], rfl, by simp⟩

/-- Where no import can hold the names, one that binds each of them is declared. -/
theorem inserted_declare {file' : SourceFile} {e : Edit} (h : Edited file file' e)
    (htarget : target? file module names = none)
    (he : declare file module names file.root.children = e) :
    Inserted (names.map (valueBinding (some module))) (bindings file)
      ((revisedStatements file module names e).flatMap (statementBindings file')) := by
  rcases declare_cases file module names file.root.children with
    ⟨last, hlast, hedit⟩ | ⟨hnone, hplace⟩
  · exact inserted_declare_behind h htarget hlast (he.symm.trans hedit)
  · rw [he] at hplace
    refine inserted_declare_top htarget (fun x hx => ?_) (declaration_at_top h hplace)
    exact Bool.eq_false_of_not_eq_true (List.filter_eq_nil_iff.mp hnone x hx)

/-! ### The bindings of the whole file -/

/-- The bindings of the edited file are those of the file, and among them one for each name that
the target does not list. -/
theorem inserted_revised (hf : file.WellFormed) (hq : QuotedSources file) (module : String)
    (names : List String) :
    Inserted ((added file module names).map (valueBinding (some module))) (bindings file)
      (bindings (revised file module names)) := by
  cases htarget : target? file module names with
  | none =>
    have hensure := ensure_eq_declare htarget
    rw [added, htarget, revised_of_edit hensure]
    exact inserted_declare (revised_of_edit hensure ▸ edited_revised hf hensure) htarget rfl
  | some n =>
    have hadded : added file module names =
        names.filter (!(listedInImport file n).contains ·) := by rw [added, htarget]
    rw [hadded]
    rcases ensure_of_target htarget with ⟨hext, hensure⟩ | ⟨e, hext, hensure⟩
    · have hsame : revised file module names = file := by
        rw [revised, hensure, apply_nil]
      rw [hsame, added_eq_nil hext]
      exact ⟨bindings file, [], by simp, by simp⟩
    · have himport := isImport_of_target htarget
      have hmem : n ∈ file.root.children := List.mem_of_find?_eq_some htarget
      have hedited := edited_revised hf hensure
      obtain ⟨pre, post, hcs, -, hstatements⟩ := around_extended htarget hensure
      obtain ⟨hwithin, hins⟩ := inserted_import hedited (Node.mem_preorder_of_mem_children hmem)
        himport (hq n hmem himport) hext
      rw [bindings, bindings, hstatements]
      refine hedited.inserted_child (Node.mem_preorder_self file.root) hcs hwithin
        (fun _ _ => statementBindings_kept) ?_
      rw [List.flatMap_singleton]
      exact hins

theorem added_subset (file : SourceFile) (module : String) (names : List String) :
    (added file module names).Sublist names := by
  unfold added
  split
  · exact .refl _
  · exact List.filter_sublist

theorem valueCount_map_valueBinding (module name : String) (names : List String) :
    valueCount (names.map (valueBinding (some module))) module name = names.count name := by
  rw [valueCount, List.countP_map, List.count]
  congr 1
  funext n
  simp [valueBinding, Binding.isValue, Form.isNamed]

theorem Inserted.valueCount {new before after : List Binding} (h : Inserted new before after)
    (module name : String) : valueCount after module name =
      valueCount before module name + valueCount new module name := by
  obtain ⟨pre, post, rfl, rfl⟩ := h
  simp only [NamedImport.valueCount, List.countP_append]
  omega

/-- Every binding of the file is kept, and those that are new are each for a name that the target
does not list. So names that were bound once at most are each bound once afterwards exactly when
the target lists those of them that were bound. -/
theorem binds_each_once_iff (hf : file.WellFormed) (hq : QuotedSources file) (module : String)
    {names : List String} (hnodup : names.Nodup)
    (honce : ∀ n ∈ names, valueCount (bindings file) module n ≤ 1) :
    (revised file module names).text = (ensure file module names).apply file.text ∧
      Inserted ((added file module names).map (valueBinding (some module))) (bindings file)
        (bindings (revised file module names)) ∧
      ((∀ n ∈ names, valueCount (bindings (revised file module names)) module n = 1) ↔
        ∀ n ∈ names, n ∈ added file module names ↔ valueCount (bindings file) module n = 0) := by
  have hins := inserted_revised hf hq module names
  refine ⟨rfl, hins, forall₂_congr fun n hn => ?_⟩
  have hadded : (added file module names).count n =
      if n ∈ added file module names then 1 else 0 :=
    (hnodup.sublist (added_subset file module names)).count
  have hcount := hins.valueCount module n
  rw [valueCount_map_valueBinding, hadded] at hcount
  have hbefore := honce n hn
  split at hcount
  case isTrue hmem =>
    rw [hcount]
    simp only [hmem, true_iff]
    omega
  case isFalse hnot =>
    rw [hcount]
    simp only [hnot, false_iff]
    omega

end

/-- A default import, and an import of a name, from one module. -/
def divided : SourceFile := SourceFile.parse "import d from 'm'; import { a } from 'm'"

theorem divided_binds_each_once_iff : divided.WellFormed ∧ QuotedSources divided ∧
    ["b"].Nodup ∧ (∀ n ∈ ["b"], valueCount (bindings divided) "m" n ≤ 1) ∧
    ((∀ n ∈ ["b"], valueCount (bindings (revised divided "m" ["b"])) "m" n = 1) ↔
      ∀ n ∈ ["b"], n ∈ added divided "m" ["b"] ↔ valueCount (bindings divided) "m" n = 0) := by
  have hwf : divided.WellFormed := by decide +kernel
  have hq : QuotedSources divided := quotedSources_parse _
  have hnodup : ["b"].Nodup := by decide
  have honce : ∀ n ∈ ["b"], valueCount (bindings divided) "m" n ≤ 1 := by decide +kernel
  exact ⟨hwf, hq, hnodup, honce, (binds_each_once_iff hwf hq "m" hnodup honce).2.2⟩

/-- The name is taken from the later import, and added to the default import all the same. -/
theorem divided_binds_twice :
    ["a"].Nodup ∧ valueCount (bindings divided) "m" "a" = 1 ∧
      valueCount (bindings (SourceFile.parse ((ensure divided "m" ["a"]).apply divided.text)))
        "m" "a" = 2 := by
  decide +kernel

end TokenLint.NamedImport
