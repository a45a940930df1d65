import TokenLint.Proofs.NamedImport.Revised

/-!
# What an extended import binds

The edit of an import puts specifiers behind those there are, or braces of its own behind a default.
Whatever else stands around its place is kept, so the import binds what it bound, and the new names
beside it.
-/
namespace TokenLint.NamedImport

open Source Text

/-- Bindings are put among others. -/
def Inserted (new before after : List Binding) : Prop :=
  ∃ pre post, before = pre ++ post ∧ after = pre ++ new ++ post

theorem Inserted.behind (new before : List Binding) : Inserted new before (before ++ new) :=
  ⟨before, [], by simp, by simp⟩

theorem Inserted.context {new before after : List Binding} (h : Inserted new before after)
    (first last : List Binding) :
    Inserted new (first ++ (before ++ last)) (first ++ (after ++ last)) := by
  obtain ⟨pre, post, rfl, rfl⟩ := h
  exact ⟨first ++ pre, post ++ last, by simp, by simp⟩

/-! ### Where the edit is -/

theorem exists_splice_firstOf {p : Node → Bool} {cs : List Node} {c : Node}
    (h : cs.find? p = some c) : ∃ pre post, cs = pre ++ c :: post ∧ (∀ x ∈ pre, p x = false) ∧
      ∀ f put, splice (firstOf p) f put cs = pre ++ (put c ++ post.map (Node.move f)) := by
  induction cs with
  | nil => cases h
  | cons d cs ih =>
    by_cases hd : p d = true
    · rw [List.find?_cons_of_pos hd] at h
      obtain rfl := Option.some.inj h
      exact ⟨[], cs, rfl, by simp, fun f put => by simp [splice, firstOf, hd]⟩
    · rw [List.find?_cons_of_neg hd] at h
      obtain ⟨pre, post, rfl, hpre, hsplice⟩ := ih h
      have hd' := Bool.eq_false_of_not_eq_true hd
      refine ⟨d :: pre, post, rfl, List.forall_mem_cons.mpr ⟨hd', hpre⟩, fun f put => ?_⟩
      rw [splice, firstOf, if_neg hd, hsplice]
      rfl

theorem exists_splice_lastOf {p : Node → Bool} {cs : List Node} {c : Node}
    (h : (cs.filter p).getLast? = some c) : ∃ pre post, cs = pre ++ c :: post ∧
      ∀ f put, splice (lastOf p) f put cs = pre ++ (put c ++ post.map (Node.move f)) := by
  induction cs with
  | nil => cases h
  | cons d cs ih =>
    by_cases hlast : lastOf p d cs = true
    · obtain ⟨hd, hnone⟩ : p d = true ∧ cs.filter p = [] := by
        simpa [lastOf] using hlast
      rw [List.filter_cons_of_pos hd, hnone] at h
      obtain rfl := Option.some.inj h
      exact ⟨[], cs, rfl, fun f put => by rw [splice, if_pos hlast]; rfl⟩
    · have hrest : (cs.filter p).getLast? = some c := by
        rw [List.filter_cons] at h
        split at h
        case isFalse => exact h
        case isTrue hd =>
          rw [List.getLast?_cons] at h
          cases hnone : (cs.filter p).getLast? with
          | some l =>
            rw [hnone] at h
            exact h
          | none =>
            have hempty : cs.filter p = [] := List.getLast?_eq_none_iff.mp hnone
            refine absurd ?_ hlast
            simpa [lastOf, hd] using hempty
      obtain ⟨pre, post, rfl, hsplice⟩ := ih hrest
      refine ⟨d :: pre, post, rfl, fun f put => ?_⟩
      rw [splice, if_neg hlast, hsplice]
      rfl

/-- One edit that fits a well-formed file makes the text of another. -/
structure Edited (file file' : SourceFile) (e : Edit) : Prop where
  wellFormed : file.WellFormed
  fits : IsRange file.text.toList e.span
  text : file'.text = EditPlan.apply [e] file.text

section
variable {file file' : SourceFile} {e : Edit} {n c : Node} {pre post put : List Node}
  {F F' : Node → List Binding} {new : List Binding}

theorem Edited.text_at (h : Edited file file' e) : At file' e.span.start e.text := by
  obtain ⟨front, old, back, -, hfront, -, happly⟩ := EditPlan.apply_singleton h.fits
  exact ⟨front, back, by rw [h.text, happly], hfront⟩

/-- Braces that are put behind a default stand behind the comma. -/
theorem Edited.braces_at (h : Edited file file' e) {pos : Nat} {names : List String}
    (hedit : Edit.insert pos (", \x7b " ++ listed names ++ " \x7d") = e) :
    At file' (pos + 2) ("\x7b " ++ listed names ++ " \x7d") := by
  have hat := h.text_at
  have hopen : ", \x7b " = ", " ++ "\x7b " := rfl
  rw [← hedit] at hat
  simp only [Edit.insert, hopen, String.append_assoc] at hat
  rw [String.append_assoc]
  exact hat.append.2

/-- Where the edit is within a child, the other children are kept. -/
theorem Edited.siblings (h : Edited file file' e) (hn : n ∈ file.root.preorder)
    (hcs : n.children = pre ++ c :: post) (hwithin : e.span.Within c.span) :
    (∀ x ∈ pre, x.Kept file file' id) ∧ ∀ x ∈ post, x.Kept file file' e.shift := by
  have hapart := (h.wellFormed.nests n hn).apart
  rw [hcs, List.pairwise_append] at hapart
  obtain ⟨-, hpost, hpre⟩ := hapart
  refine ⟨fun x hx => ?_, fun x hx => ?_⟩
  · have hmem : x ∈ n.children := by simp [hcs, hx]
    exact kept_before h.wellFormed h.fits h.text (Node.mem_preorder_child hn hmem)
      (Nat.le_trans (hpre x hx c List.mem_cons_self) hwithin.1)
  · have hmem : x ∈ n.children := by simp [hcs, hx]
    exact kept_behind h.wellFormed h.fits h.text (Node.mem_preorder_child hn hmem)
      (Nat.le_trans hwithin.2 ((List.pairwise_cons.mp hpost).1 x hx))

/-- Where the edit is within a child, what the other children bind stays around it. -/
theorem Edited.inserted_child (h : Edited file file' e) (hn : n ∈ file.root.preorder)
    (hcs : n.children = pre ++ c :: post) (hwithin : e.span.Within c.span)
    (hkept : ∀ f x, x.Kept file file' f → F' (x.move f) = F x)
    (hc : Inserted new (F c) (put.flatMap F')) :
    Inserted new (n.children.flatMap F)
      ((pre ++ (put ++ post.map (Node.move e.shift))).flatMap F') := by
  obtain ⟨hpre, hpost⟩ := h.siblings hn hcs hwithin
  have hfirst : pre.flatMap F' = pre.flatMap F := by
    refine List.flatMap_congr fun x hx => ?_
    rw [← hkept id x (hpre x hx), Node.move_id]
  have hlast : (post.map (Node.move e.shift)).flatMap F' = post.flatMap F := by
    rw [List.flatMap_map]
    exact List.flatMap_congr fun x hx => hkept e.shift x (hpost x hx)
  rw [hcs]
  simp only [List.flatMap_append, List.flatMap_cons, hfirst, hlast]
  exact hc.context _ _

/-- An insertion at the end of a child keeps the child, and what is put there binds behind it. -/
theorem Edited.inserted_behind (h : Edited file file' e) (hn : n ∈ file.root.preorder)
    (hcs : n.children = pre ++ c :: post) (hspan : e.span = ⟨c.stop, c.stop⟩)
    (hkept : ∀ f x, x.Kept file file' f → F' (x.move f) = F x) (hnew : put.flatMap F' = new) :
    e.span.Within n.span ∧
      Inserted new (n.children.flatMap F)
        ((pre ++ (c :: put ++ post.map (Node.move e.shift))).flatMap F') := by
  have hmem : c ∈ n.children := by simp [hcs]
  have hroot := Node.mem_preorder_child hn hmem
  have hwithin : e.span.Within c.span := by
    rw [hspan]
    exact (h.wellFormed.nests c hroot).stop_within
  have hself : c.Kept file file' id :=
    kept_before h.wellFormed h.fits h.text hroot (Nat.le_of_eq (by rw [hspan]))
  refine ⟨hwithin.trans ((h.wellFormed.nests n hn).child_within hmem),
    h.inserted_child hn hcs hwithin hkept ?_⟩
  rw [← hkept id c hself, Node.move_id, List.flatMap_cons, hnew]
  exact .behind _ _

/-! ### What it puts there -/

/-- The specifiers for missing names come behind the last one. -/
theorem inserted_specifiers (h : Edited file file' e) (hn : n ∈ file.root.preorder)
    (hkind : n.kind = .namedImports) {last : Node} {names : List String}
    (hlast : (n.children.filter (·.kind == .importSpecifier)).getLast? = some last)
    (hedit : e = .insert last.stop (", " ++ listed (missing file n names)))
    (module : Option String) :
    e.span.Within n.span ∧
      Inserted ((missing file n names).map (valueBinding module))
        (partBindings file module false n)
        (partBindings file' module false (revisedBraces file names e.shift n)) := by
  have hspan : e.span = ⟨last.stop, last.stop⟩ := by rw [hedit]; rfl
  have hadds : e.text = ", " ++ listed (missing file n names) := by rw [hedit]; rfl
  obtain ⟨pre, post, hcs, hsplice⟩ := exists_splice_lastOf (p := isSpecifier) hlast
  obtain ⟨hmem, hspec⟩ := List.mem_filter.mp (List.mem_of_getLast? hlast)
  have hany : n.children.any isSpecifier = true := List.any_eq_true.mpr ⟨last, hmem, hspec⟩
  have hnew : (specifiersAt (last.stop + 2) (missing file n names)).flatMap
      (specifierBindings file' module false) =
        (missing file n names).map (valueBinding module) := by
    have hat := h.text_at
    rw [hspan, hadds] at hat
    exact bindings_specifiersAt hat.append.2 module
  unfold revisedBraces
  rw [if_pos hany, partBindings_of_braces _ _ _ hkind, partBindings_stretch hkind, hsplice]
  exact h.inserted_behind hn hcs hspan (fun _ _ hx => specifierBindings_kept hx _ _) hnew

/-- Braces without specifiers are made anew, with the names in them. -/
theorem inserted_braces_anew (h : Edited file file' e) (hkind : n.kind = .namedImports)
    {names : List String}
    (hnone : (n.children.filter (·.kind == .importSpecifier)).getLast? = none)
    (hedit : e = ⟨n.span, "\x7b " ++ listed (missing file n names) ++ " \x7d"⟩)
    (module : Option String) :
    e.span.Within n.span ∧
      Inserted ((missing file n names).map (valueBinding module))
        (partBindings file module false n)
        (partBindings file' module false (revisedBraces file names e.shift n)) := by
  have hspan : e.span = n.span := by rw [hedit]
  have hempty : n.children.filter isSpecifier = [] := List.getLast?_eq_none_iff.mp hnone
  have hnot : ∀ x ∈ n.children, isSpecifier x = false := by
    simpa [List.filter_eq_nil_iff] using hempty
  have hany : ¬n.children.any isSpecifier = true := by simpa using hnot
  have hbefore : n.children.flatMap (specifierBindings file module false) = [] :=
    List.flatMap_eq_nil_iff.mpr fun x hx => by rw [specifierBindings, hnot x hx]; rfl
  have hat : At file' n.start ("\x7b " ++ listed (missing file n names) ++ " \x7d") := by
    have hat := h.text_at
    rw [hedit] at hat
    exact hat
  have hnew : partBindings file' module false (bracesAt n.start (missing file n names)) =
      (missing file n names).map (valueBinding module) := bindings_bracesAt hat module
  refine ⟨by rw [hspan]; exact Span.Within.refl _, ?_⟩
  unfold revisedBraces
  rw [if_neg hany, partBindings_of_braces _ _ _ hkind, hbefore]
  refine ⟨[], [], rfl, ?_⟩
  rw [List.nil_append, List.append_nil]
  exact hnew

/-- The specifiers for missing names come behind the last one, or the braces are made anew. -/
theorem inserted_braces (h : Edited file file' e) (hn : n ∈ file.root.preorder)
    (hkind : n.kind = .namedImports) {names : List String}
    (hext : extendNamed file n names = .extended e) (module : Option String) :
    e.span.Within n.span ∧
      Inserted ((names.filter (!(listedIn file n).contains ·)).map (valueBinding module))
        (partBindings file module false n)
        (partBindings file' module false (revisedBraces file names e.shift n)) := by
  rcases extendNamed_cases hext with ⟨last, hlast, hedit⟩ | ⟨hnone, hedit⟩
  · exact inserted_specifiers h hn hkind hlast hedit module
  · exact inserted_braces_anew h hkind hnone hedit module

/-- Names are added to the braces of a clause, or in braces of their own behind its default. -/
theorem inserted_clause (h : Edited file file' e) (hn : n ∈ file.root.preorder)
    {names : List String} (hext : extendClause file n names = .extended e)
    (module : Option String) :
    e.span.Within n.span ∧
      Inserted ((names.filter (!(listedInClause file n).contains ·)).map (valueBinding module))
        (n.children.flatMap (partBindings file module false))
        ((revisedClause file names e.shift n).children.flatMap
          (partBindings file' module false)) := by
  rw [revisedClause, children_stretch, listedInClause]
  rcases extendClause_cases hext with ⟨braces, hbraces, hext⟩ | ⟨default, hnone, hdefault, hedit⟩
  · obtain ⟨hmem, hkind⟩ := Node.mem_children_of_childOf? hbraces
    obtain ⟨pre, post, hcs, -, hsplice⟩ := exists_splice_firstOf (p := isKind .namedImports) hbraces
    obtain ⟨hwithin, hins⟩ := inserted_braces h (Node.mem_preorder_child hn hmem) hkind hext module
    refine ⟨hwithin.trans ((h.wellFormed.nests n hn).child_within hmem), ?_⟩
    rw [hbraces, Option.isSome_some, if_pos rfl, Option.map_some, Option.getD_some, hsplice]
    exact h.inserted_child hn hcs hwithin (fun _ _ hx => partBindings_kept hx _ _)
      (by simpa using hins)
  · have hspan : e.span = ⟨default.stop, default.stop⟩ := by rw [hedit]; rfl
    obtain ⟨pre, post, hcs, -, hsplice⟩ := exists_splice_firstOf (p := isKind .identifier) hdefault
    have hnew : [bracesAt (default.stop + 2) names].flatMap (partBindings file' module false) =
        names.map (valueBinding module) := by
      rw [List.flatMap_singleton]
      exact bindings_bracesAt (h.braces_at hedit.symm) module
    have hall : names.filter (!([] : List String).contains ·) = names := by simp
    rw [hnone, Option.isSome_none, if_neg (by decide), Option.map_none, Option.getD_none, hall,
      hsplice]
    exact h.inserted_behind hn hcs hspan (fun _ _ hx => partBindings_kept hx _ _) hnew

/-! ### What is beside the clause -/

/-- What is looked up among the children of an import is found beside the clause, and is kept. -/
theorem find?_beside {β : Type} {p : Node → Bool} {g u : Node → β} {f : Nat → Nat} {d : Node}
    (hmove : ∀ x, p (x.move f) = p x) (hpre : ∀ x ∈ pre, p x → u x = g x)
    (hpost : ∀ x ∈ post, p x → u (x.move f) = g x) (hc : p c = false) (hd : p d = false) :
    ((pre ++ ([d] ++ post.map (Node.move f))).find? p).map u =
      ((pre ++ c :: post).find? p).map g := by
  induction pre with
  | nil =>
    have hcomp : (p ∘ Node.move f) = p := funext hmove
    simp only [List.nil_append, List.singleton_append, List.find?_cons, hc, hd, List.find?_map,
      hcomp, Option.map_map]
    exact Option.map_congr fun x hx =>
      hpost x (List.mem_of_find?_eq_some hx) (List.find?_some hx)
  | cons x pre ih =>
    cases hx : p x with
    | true => simp [hx, hpre x List.mem_cons_self hx]
    | false =>
      have hrest := ih fun y hy => hpre y (List.mem_cons_of_mem x hy)
      simpa only [List.cons_append, List.find?_cons, hx] using hrest

theorem module?_beside {n' d : Node} (hcs : n.children = pre ++ c :: post)
    (hcs' : n'.children = pre ++ ([d] ++ post.map (Node.move e.shift)))
    (hpre : ∀ x ∈ pre, x.Kept file file' id) (hpost : ∀ x ∈ post, x.Kept file file' e.shift)
    (hc : (c.role == .source) = false) (hd : (d.role == .source) = false) :
    module? file' n' = module? file n := by
  rw [module?, module?, Node.child?, Node.child?, hcs', hcs]
  refine find?_beside (fun x => by simp) (fun x hx _ => ?_) (fun x hx _ => ?_) hc hd
  · rw [← (hpre x hx).content x (Node.mem_preorder_self x), Node.move_id]
  · exact (hpost x hx).content x (Node.mem_preorder_self x)

theorem isTypeOnly_beside {n' d : Node} {f : Nat → Nat} (hcs : n.children = pre ++ c :: post)
    (hcs' : n'.children = pre ++ ([d] ++ post.map (Node.move f)))
    (hc : (c.kind == .typeMarker) = false) (hd : (d.kind == .typeMarker) = false) :
    isTypeOnly n' = isTypeOnly n := by
  have hsome : (n'.childOf? .typeMarker).map (fun _ => ()) =
      (n.childOf? .typeMarker).map fun _ => () := by
    rw [Node.childOf?, Node.childOf?, hcs', hcs]
    exact find?_beside (fun x => by simp) (fun _ _ _ => rfl) (fun _ _ _ => rfl) hc hd
  rw [isTypeOnly, isTypeOnly, ← Option.isSome_map, hsome, Option.isSome_map]

/-- An import with names added to its clause has the children it had beside the clause. So it is
from the module it was from, and of types only if it was. -/
theorem beside_revisedClause (h : Edited file file' e) (hn : n ∈ file.root.preorder)
    (hquoted : ∀ m ∈ n.children, m.role = .source → m.kind = .string) {clause : Node}
    (hclause : n.childOf? .importClause = some clause) (hwithin : e.span.Within clause.span)
    (names : List String) :
    (∃ pre post, n.children = pre ++ clause :: post ∧
        (∀ x ∈ pre, isKind .importClause x = false) ∧
        (revisedImport file names e.shift n).children =
          pre ++ ([revisedClause file names e.shift clause] ++ post.map (Node.move e.shift))) ∧
      module? file' (revisedImport file names e.shift n) = module? file n ∧
      isTypeOnly (revisedImport file names e.shift n) = isTypeOnly n := by
  obtain ⟨hmem, hkind⟩ := Node.mem_children_of_childOf? hclause
  obtain ⟨pre, post, hcs, hfirst, hsplice⟩ :=
    exists_splice_firstOf (p := isKind .importClause) hclause
  obtain ⟨hpre, hpost⟩ := h.siblings hn hcs hwithin
  have hrevised : (revisedImport file names e.shift n).children =
      pre ++ ([revisedClause file names e.shift clause] ++ post.map (Node.move e.shift)) := by
    rw [revisedImport, children_stretch, hsplice]
  -- The clause is looked at first, so it must not be taken for the module.
  have hrole : (clause.role == .source) = false := by
    refine beq_eq_false_iff_ne.mpr fun hrole => ?_
    have hstring := hquoted clause hmem hrole
    rw [hkind] at hstring
    cases hstring
  have hmarker : (clause.kind == .typeMarker) = false := by rw [hkind]; rfl
  exact ⟨⟨pre, post, hcs, hfirst, hrevised⟩, module?_beside hcs hrevised hpre hpost hrole hrole,
    isTypeOnly_beside hcs hrevised hmarker hmarker⟩

/-- The bindings of an import with names added to its clause. -/
theorem inserted_import (h : Edited file file' e) (hn : n ∈ file.root.preorder)
    (himport : isImport n) (hquoted : ∀ m ∈ n.children, m.role = .source → m.kind = .string)
    {module : String} {names : List String}
    (hext : extendImport file module names n = .extended e) :
    e.span.Within n.span ∧
      Inserted ((names.filter (!(listedInImport file n).contains ·)).map
        (valueBinding (some module)))
        (statementBindings file n)
        (statementBindings file' (revisedImport file names e.shift n)) := by
  obtain ⟨hmodule, hplain, clause, hclause, hext⟩ := clause_of_extendImport hext
  obtain ⟨hmem, hkind⟩ := Node.mem_children_of_childOf? hclause
  obtain ⟨hwithin, hins⟩ :=
    inserted_clause h (Node.mem_preorder_child hn hmem) hext (some module)
  obtain ⟨⟨pre, post, hcs, -, hrevised⟩, hmodule', hplain'⟩ :=
    beside_revisedClause h hn hquoted hclause hwithin names
  refine ⟨hwithin.trans ((h.wellFormed.nests n hn).child_within hmem), ?_⟩
  have himport' : isImport (revisedImport file names e.shift n) = true := himport
  rw [statementBindings, statementBindings, if_pos himport, if_pos himport', hmodule', hplain',
    hmodule, hplain, hrevised, listedInImport, hclause, Option.map_some, Option.getD_some]
  refine h.inserted_child hn hcs hwithin (fun _ _ hx => childBindings_kept hx _ _) ?_
  have hkind' : (revisedClause file names e.shift clause).kind = .importClause := hkind
  rw [List.flatMap_singleton, childBindings_of_clause _ _ _ hkind,
    childBindings_of_clause _ _ _ hkind']
  exact hins

end

end TokenLint.NamedImport
