import TokenLint.Proofs.NamedImport.Directive

/-!
# A second call for the same names

Whether an import can hold names is told by its module, by the word that marks it and by the parts
of its clause. An edit changes none of these in the imports before the one it is made at, and that
one lists all the names afterwards. So a second call gets as far as this import and finds them
there.
-/
namespace TokenLint.NamedImport

open Source Text

variable {file file' : SourceFile} {module : String} {names : List String} {e : Edit} {n : Node}

/-! ### Imports that can hold names -/

/-- Whether names can go into a clause: into braces, or behind a default without a namespace. -/
def takesNames (clause : Node) : Bool :=
  (clause.childOf? .namedImports).isSome ||
    (clause.childOf? .namespaceImport).isNone && (clause.childOf? .identifier).isSome

theorem extendNamed_ne_unsuitable (file : SourceFile) (named : Node) (names : List String) :
    extendNamed file named names ≠ .unsuitable := by
  unfold extendNamed
  dsimp only
  split
  · simp
  · split <;> simp

theorem extendClause_eq_unsuitable_iff {clause : Node} :
    extendClause file clause names = .unsuitable ↔ takesNames clause = false := by
  unfold extendClause takesNames
  split
  · rename_i named hnamed
    simp [extendNamed_ne_unsuitable, hnamed]
  · simp_all
  · simp_all
  · simp_all

/-- Whether an import is one of values from the module, with a clause that names can go into. -/
def suits (file : SourceFile) (module : String) (n : Node) : Bool :=
  module? file n == some module && !isTypeOnly n && (n.childOf? .importClause).any takesNames

theorem extendImport_eq_unsuitable_iff :
    extendImport file module names n = .unsuitable ↔ suits file module n = false := by
  unfold extendImport suits
  split
  case isTrue hother =>
    refine iff_of_true rfl ?_
    rcases Bool.or_eq_true _ _ ▸ hother with hmodule | htype
    · simp [bne_iff_ne.mp hmodule]
    · simp [htype]
  case isFalse hvalues =>
    obtain ⟨hmodule, hplain⟩ : module? file n = some module ∧ isTypeOnly n = false := by
      simpa using hvalues
    rw [hmodule, hplain]
    cases hclause : n.childOf? .importClause with
    | none => simp
    | some clause => simpa using extendClause_eq_unsuitable_iff

theorem canHold_eq : canHold file module names n = (isImport n && suits file module n) := by
  rw [canHold]
  cases hext : extendImport file module names n with
  | unsuitable => rw [extendImport_eq_unsuitable_iff.mp hext]
  | complete | extended e =>
    have hsuits : suits file module n ≠ false := fun hnot => by
      rw [extendImport_eq_unsuitable_iff.mpr hnot] at hext
      cases hext
    rw [Bool.eq_true_of_not_eq_false hsuits]

/-- An import that is kept can hold names if it could before. -/
theorem canHold_kept {f : Nat → Nat} (h : n.Kept file file' f) :
    canHold file' module names (n.move f) = canHold file module names n := by
  have htakes : (fun clause => takesNames (Node.move f clause)) = takesNames := by
    funext clause
    simp [takesNames, Node.childOf?_move]
  rw [canHold_eq, canHold_eq, suits, suits, module?_kept h, isTypeOnly_move, Node.childOf?_move,
    Option.any_map, htakes, isImport, isImport, Node.kind_move]

theorem canHold_stays (h : n.Kept file file' id) :
    canHold file' module names n = canHold file module names n := by
  rw [← canHold_kept h, Node.move_id]

/-! ### Imports that hold them -/

/-- An import of the module with braces that list all names. -/
structure Lists (file : SourceFile) (module : String) (names : List String) (n : Node) : Prop where
  isImport : isImport n
  module : module? file n = some module
  ofValues : isTypeOnly n = false
  braces : ∃ clause braces, n.childOf? .importClause = some clause ∧
    clause.childOf? .namedImports = some braces ∧ ∀ s ∈ names, s ∈ listedIn file braces

theorem Lists.complete (h : Lists file module names n) :
    extendImport file module names n = .complete := by
  obtain ⟨clause, braces, hclause, hbraces, hlisted⟩ := h.braces
  have hmissing : names.filter (!(listedIn file braces).contains ·) = [] := by
    rw [List.filter_eq_nil_iff]
    simpa using hlisted
  have hnamed : extendNamed file braces names = .complete := by
    have hexisting : (braces.children.filter (·.kind == .importSpecifier)).filterMap
        (boundName? file) = listedIn file braces := rfl
    simp only [extendNamed, hexisting, hmissing]
    rfl
  rw [extendImport, h.module, h.ofValues, hclause, if_neg (by simp)]
  simp only [extendClause, hbraces]
  exact hnamed

/-- Nothing is edited where the first import that can hold the names lists them. -/
theorem ensure_eq_nil {pre post : List Node} (hcs : file.root.children = pre ++ n :: post)
    (hpre : ∀ x ∈ pre, canHold file module names x = false) (h : Lists file module names n) :
    ensure file module names = [] := by
  have hholds : canHold file module names n = true := by simp [canHold, h.isImport, h.complete]
  have hnone : pre.find? (canHold file module names) = none :=
    List.find?_eq_none.mpr fun x hx => by rw [hpre x hx]; decide
  have htarget : target? file module names = some n := by
    rw [target?, hcs, List.find?_append, hnone, Option.none_or, List.find?_cons_of_pos hholds]
  rw [ensure_eq, htarget, Option.map_some, Option.getD_some, h.complete]

/-! ### An import that was extended -/

theorem childOf?_eq_some {k : Kind} {pre post : List Node} {c : Node}
    (hcs : n.children = pre ++ c :: post) (hpre : ∀ x ∈ pre, isKind k x = false)
    (hc : isKind k c = true) : n.childOf? k = some c := by
  have hfind : (pre ++ c :: post).find? (isKind k) = some c :=
    List.find?_eq_some_iff_append.mpr ⟨hc, pre, post, rfl, fun x hx => by simp [hpre x hx]⟩
  rw [← hfind, ← hcs]
  rfl

theorem listedIn_eq (h : n.kind = .namedImports) (module : Option String) (ofType : Bool) :
    listedIn file n = (partBindings file module ofType n).map Binding.name := by
  rw [partBindings_of_braces _ _ _ h, listedIn]
  induction n.children with
  | nil => rfl
  | cons s cs ih =>
    rw [List.flatMap_cons, List.map_append, ← ih, specifierBindings]
    by_cases hs : isSpecifier s = true
    · rw [List.filter_cons_of_pos hs, if_pos hs]
      cases hbound : boundName? file s <;> simp [hbound]
    · rw [List.filter_cons_of_neg hs, if_neg hs]
      rfl

theorem listedIn_bracesAt {pos : Nat} (h : At file pos ("\x7b " ++ listed names ++ " \x7d")) :
    listedIn file (bracesAt pos names) = names := by
  have hname : Binding.name ∘ valueBinding none = id := rfl
  rw [listedIn_eq rfl none false, bindings_bracesAt h, List.map_map, hname, List.map_id]

theorem kind_revisedBraces (h : n.kind = .namedImports) (f : Nat → Nat) :
    (revisedBraces file names f n).kind = .namedImports := by
  unfold revisedBraces
  dsimp only
  split
  · exact h
  · rfl

/-- Braces list all the names once the missing ones are put in. -/
theorem listed_braces (h : Edited file file' e) (hn : n ∈ file.root.preorder)
    (hkind : n.kind = .namedImports) (hext : extendNamed file n names = .extended e) :
    ∀ s ∈ names, s ∈ listedIn file' (revisedBraces file names e.shift n) := by
  obtain ⟨-, pre, post, hbefore, hafter⟩ := inserted_braces h hn hkind hext none
  intro s hs
  rw [listedIn_eq (kind_revisedBraces hkind e.shift) none false, hafter]
  by_cases hthere : s ∈ listedIn file n
  · rw [listedIn_eq hkind none false, hbefore] at hthere
    simp only [List.map_append, List.mem_append] at hthere ⊢
    exact hthere.imp_left .inl
  · have hmissing : s ∈ names.filter (!(listedIn file n).contains ·) := by
      simpa using ⟨hs, hthere⟩
    have hname := List.mem_map_of_mem (f := Binding.name)
      (List.mem_map_of_mem (f := valueBinding none) hmissing)
    rw [List.map_append, List.map_append]
    exact List.mem_append_left _ (List.mem_append_right _ hname)

/-- The first braces of a clause are those it had, with the missing names put in. -/
theorem braces_of_revisedClause {braces : Node} (h : n.childOf? .namedImports = some braces)
    (f : Nat → Nat) : (revisedClause file names f n).childOf? .namedImports =
      some (revisedBraces file names f braces) := by
  obtain ⟨pre, post, -, hpre, hsplice⟩ := exists_splice_firstOf (p := isKind .namedImports) h
  have hkind : isKind .namedImports (revisedBraces file names f braces) = true := by
    rw [isKind, kind_revisedBraces (Node.mem_children_of_childOf? h).2]
    rfl
  have hrevised : (revisedClause file names f n).children =
      pre ++ revisedBraces file names f braces :: post.map (Node.move f) := by
    rw [revisedClause, children_stretch, h, Option.isSome_some, if_pos rfl, hsplice]
    rfl
  exact childOf?_eq_some hrevised hpre hkind

/-- In a clause without braces the first are those that are put behind the default. -/
theorem braces_behind_default {default : Node} (hnone : n.childOf? .namedImports = none)
    (hdefault : n.childOf? .identifier = some default) (f : Nat → Nat) :
    (revisedClause file names f n).childOf? .namedImports =
      some (bracesAt (default.stop + 2) names) := by
  obtain ⟨pre, post, hcs, -, hsplice⟩ := exists_splice_firstOf (p := isKind .identifier) hdefault
  have hrevised : (revisedClause file names f n).children =
      (pre ++ [default]) ++ bracesAt (default.stop + 2) names :: post.map (Node.move f) := by
    rw [revisedClause, children_stretch, hnone, Option.isSome_none, if_neg (by decide), hsplice,
      List.append_assoc]
    rfl
  have hothers : ∀ x ∈ pre ++ [default], isKind .namedImports x = false := fun x hx => by
    have hmem : x ∈ n.children := by
      rw [hcs, List.append_cons]
      exact List.mem_append_left _ hx
    exact Bool.eq_false_of_not_eq_true (List.find?_eq_none.mp hnone x hmem)
  exact childOf?_eq_some hrevised hothers rfl

/-- The first braces of a clause list all the names once it is extended. -/
theorem listed_clause (h : Edited file file' e) (hn : n ∈ file.root.preorder)
    (hext : extendClause file n names = .extended e) :
    ∃ braces, (revisedClause file names e.shift n).childOf? .namedImports = some braces ∧
      ∀ s ∈ names, s ∈ listedIn file' braces := by
  rcases extendClause_cases hext with ⟨braces, hbraces, hext⟩ | ⟨default, hnone, hdefault, hedit⟩
  · obtain ⟨hmem, hkind⟩ := Node.mem_children_of_childOf? hbraces
    exact ⟨_, braces_of_revisedClause hbraces _,
      listed_braces h (Node.mem_preorder_child hn hmem) hkind hext⟩
  · refine ⟨_, braces_behind_default hnone hdefault _, fun s hs => ?_⟩
    rwa [listedIn_bracesAt (h.braces_at hedit.symm)]

/-- An import lists all the names once it is extended. -/
theorem lists_import (h : Edited file file' e) (hn : n ∈ file.root.preorder)
    (himport : isImport n) (hquoted : ∀ m ∈ n.children, m.role = .source → m.kind = .string)
    (hext : extendImport file module names n = .extended e) :
    Lists file' module names (revisedImport file names e.shift n) := by
  obtain ⟨hmodule, hplain, clause, hclause, hext⟩ := clause_of_extendImport hext
  obtain ⟨hmem, hkind⟩ := Node.mem_children_of_childOf? hclause
  have hcroot := Node.mem_preorder_child hn hmem
  obtain ⟨hwithin, -⟩ := inserted_clause h hcroot hext none
  obtain ⟨⟨pre, post, -, hpre, hrevised⟩, hmodule', hplain'⟩ :=
    beside_revisedClause h hn hquoted hclause hwithin names
  obtain ⟨braces, hbraces, hlisted⟩ := listed_clause h hcroot hext
  have hkind' : isKind .importClause (revisedClause file names e.shift clause) = true := by
    rw [isKind, revisedClause, kind_stretch, hkind]
    rfl
  exact ⟨himport, hmodule'.trans hmodule, hplain'.trans hplain,
    _, braces, childOf?_eq_some hrevised hpre hkind', hbraces, hlisted⟩

/-- A new declaration lists all the names. -/
theorem lists_declaration {pos : Nat} {ended : Bool}
    (h : At file pos (declaration module names ended)) :
    Lists file module names (declarationAt pos module names ended) := by
  refine ⟨rfl, module?_declarationAt h, rfl, _, bracesAt (pos + 7) names, rfl, rfl, fun s hs => ?_⟩
  rwa [listedIn_bracesAt (parts_of_declaration h).1]

/-! ### The second call -/

/-- The target is extended behind imports that cannot hold the names, and lists them then. -/
theorem ensure_extended (hf : file.WellFormed) (hq : QuotedSources file)
    (htarget : target? file module names = some n)
    (hext : extendImport file module names n = .extended e)
    (hensure : ensure file module names = [e]) :
    ensure (revised file module names) module names = [] := by
  have himport := isImport_of_target htarget
  have hmem : n ∈ file.root.children := List.mem_of_find?_eq_some htarget
  have hroot := Node.mem_preorder_self file.root
  have hedited := edited_revised hf hensure
  have hlists := lists_import hedited (Node.mem_preorder_of_mem_children hmem) himport
    (hq n hmem himport) hext
  obtain ⟨pre, post, hcs, hpre, hstatements⟩ := around_extended htarget hensure
  obtain ⟨hwithin, -⟩ := inserted_import hedited (Node.mem_preorder_of_mem_children hmem) himport
    (hq n hmem himport) hext
  refine ensure_eq_nil hstatements (fun x hx => ?_) hlists
  rw [canHold_stays ((hedited.siblings hroot hcs hwithin).1 x hx)]
  exact hpre x hx

/-- No statement before a declaration can hold the names, and the declaration lists them. -/
theorem ensure_declared (hf : file.WellFormed) (hnone : target? file module names = none) :
    ensure (revised file module names) module names = [] := by
  obtain ⟨pre, post, pos, ended, hdeclared, -⟩ := exists_declared hf hnone
  refine ensure_eq_nil hdeclared.after (fun x hx => ?_) (lists_declaration hdeclared.written)
  have hmem : x ∈ file.root.children := by simp [hdeclared.before, hx]
  rw [canHold_stays (hdeclared.stays x hx).1]
  exact Bool.eq_false_of_not_eq_true (List.find?_eq_none.mp hnone x hmem)

/-- One call makes at most one edit, and a second call for the same names makes none. -/
theorem ensure_revised (hf : file.WellFormed) (hq : QuotedSources file) (module : String)
    (names : List String) :
    (ensure file module names).length ≤ 1 ∧
      (revised file module names).text = (ensure file module names).apply file.text ∧
      ensure (revised file module names) module names = [] := by
  refine ⟨(ensure_clear hf module names).1, rfl, ?_⟩
  cases htarget : target? file module names with
  | none => exact ensure_declared hf htarget
  | some n =>
    rcases ensure_of_target htarget with ⟨-, hensure⟩ | ⟨e, hext, hensure⟩
    · have hsame : revised file module names = file := by
        rw [revised, hensure, apply_nil]
      rw [hsame, hensure]
    · exact ensure_extended hf hq htarget hext hensure

/-- An import for effects, one of a namespace and one of a default, all of one module. -/
def mixed : SourceFile :=
  SourceFile.parse "import 'm'\nimport * as n from 'm'\nimport d from 'm'"

theorem mixed_revised : mixed.WellFormed ∧ QuotedSources mixed ∧
    (ensure mixed "m" ["a"]).length = 1 ∧
    ensure (revised mixed "m" ["a"]) "m" ["a"] = [] := by
  have hwf : mixed.WellFormed := by decide +kernel
  have hq : QuotedSources mixed := quotedSources_parse _
  exact ⟨hwf, hq, by decide +kernel, (ensure_revised hwf hq "m" ["a"]).2.2⟩

-- Nor is there an edit where the new text is read anew.
example : ensure (SourceFile.parse ((ensure mixed "m" ["a"]).apply mixed.text)) "m" ["a"] = [] := by
  decide +kernel

end TokenLint.NamedImport
