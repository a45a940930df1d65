import TokenLint.Proofs.Codemod.LegacyToken.Applied

/-!
# Chains of accesses

A chain begins at the object and reads one property after the other. Each chain that does not go on
behind its last property is rewritten by one edit, over the whole of it, and these edits are apart:
the members inside a chain are objects of other members.
-/
namespace TokenLint.Codemod.LegacyToken

open Source

variable {file : SourceFile}

/-- The object, or a member that reads plain properties of it one after the other, named in the
order of the source. -/
inductive Reads (file : SourceFile) : Node → List String → Prop
  | object {n : Node} (hkind : n.kind = .identifier) (htext : file.nodeText n = oldName) :
      Reads file n []
  | property {n o p : Node} {names : List String} (hkind : n.kind = .member)
      (hobject : n.child? .object = some o) (hproperty : n.child? .property = some p)
      (hplain : p.kind = .propertyName) (inner : Reads file o names) :
      Reads file n (names ++ [file.nodeText p])

/-- A member that reads properties of the object and is not itself the object of another member. -/
structure ChainAt (file : SourceFile) (v : Visit) (names : List String) : Prop where
  member : v.node.kind = .member
  outer : ¬∃ p, v.parent = some p ∧ p.kind = .member ∧ v.node.role = .object
  reads : Reads file v.node names

/-- What is written for a path: the classes of the table, quoted, or else the path again behind a
mark and the new name. -/
structure WrittenFor (path text : String) : Prop where
  known : ∀ classes, (path, classes) ∈ table → text = "\"" ++ classes ++ "\""
  unknown : (∀ classes, (path, classes) ∉ table) →
    text = "/* TODO(ds-migration): map " ++ path ++ " */ " ++ newName ++ "." ++ path

/-- An edit over the whole of a chain that writes what there is for its path. -/
structure Rewrites (file : SourceFile) (v : Visit) (e : Edit) : Prop where
  span : e.span = v.node.span
  written : ∃ names, ChainAt file v names ∧ WrittenFor (".".intercalate names) e.text

/-- The edits of the declarations. -/
def retirements (file : SourceFile) : EditPlan :=
  (file.root.children.flatMap (declarationsIn file)).flatMap (retire file)

/-! ### What is read -/

theorem reads_of_chain? {links : Nat} {n : Node} {names : List String}
    (h : chain? file links n = some names) : Reads file n names.reverse := by
  induction links generalizing n names with
  | zero => cases h
  | succ links ih =>
    rcases chain?_succ h with ⟨hold, rfl⟩ | ⟨hkind, o, p, inner, ho, hp, hplain, hinner, rfl⟩
    · obtain ⟨hkind, htext⟩ := isOldName_iff.mp hold
      exact .object hkind htext
    · rw [List.reverse_cons]
      exact .property hkind ho hp hplain (ih hinner)

/-- As many links as there are nodes are enough. -/
theorem Reads.chain?_eq {n : Node} {names : List String} (h : Reads file n names) {links : Nat}
    (hlinks : n.count ≤ links) : chain? file links n = some names.reverse := by
  induction h generalizing links with
  | @object n hkind htext =>
    have hpos : 0 < n.count := by rw [Node.count_eq]; exact Nat.succ_pos _
    obtain ⟨links, rfl⟩ :=
      Nat.exists_eq_succ_of_ne_zero (Nat.ne_of_gt (Nat.lt_of_lt_of_le hpos hlinks))
    have hold : isOldName file n = true := isOldName_iff.mpr ⟨hkind, htext⟩
    rw [chain?, if_neg (by rw [hkind]; decide), if_pos hold]
    rfl
  | @property n o p names hkind hobject hproperty hplain inner ih =>
    have hless := Node.count_lt_of_mem_children (Node.mem_children_of_child? hobject).1
    have hmore := Nat.lt_of_lt_of_le hless hlinks
    obtain ⟨links, rfl⟩ :=
      Nat.exists_eq_succ_of_ne_zero (Nat.ne_of_gt (Nat.zero_lt_of_lt hmore))
    have hinner := ih (Nat.le_of_lt_succ hmore)
    rw [chain?, if_pos (by rw [hkind]; rfl), hproperty, hobject]
    simp [hplain, hinner]

theorem writtenFor_replacement (path : String) : WrittenFor path (replacement path) where
  known := fun classes hmem => by
    have hlookup : ∀ entry ∈ table, table.lookup entry.1 = some entry.2 := by decide
    have h : table.lookup path = some classes := hlookup _ hmem
    rw [replacement, h]
    rfl
  unknown := fun hnone => by
    have hlookup : table.lookup path = none := by
      rw [List.lookup_eq_none_iff]
      rintro ⟨key, classes⟩ hmem
      rw [bne_iff_ne]
      rintro rfl
      exact hnone classes hmem
    rw [replacement, hlookup]
    rfl

theorem isInnerLink_iff {v : Visit} : isInnerLink v = true ↔
    ∃ p, v.parent = some p ∧ p.kind = .member ∧ v.node.role = .object := by
  rw [isInnerLink, Bool.and_eq_true, Option.any_eq_true, beq_iff_eq]
  simp only [beq_iff_eq]
  constructor
  · rintro ⟨⟨p, hp, hkind⟩, hrole⟩
    exact ⟨p, hp, hkind, hrole⟩
  · rintro ⟨p, hp, hkind, hrole⟩
    exact ⟨⟨p, hp, hkind⟩, hrole⟩

/-- Just a chain has an edit: over the whole of it, with what is put in place of its path. -/
theorem accessEdit?_eq_some_iff {v : Visit} {e : Edit} : accessEdit? file v = some e ↔
    ∃ names, ChainAt file v names ∧ e = ⟨v.node.span, replacement (".".intercalate names)⟩ := by
  constructor
  · intro h
    unfold accessEdit? path? at h
    split at h
    · cases h
    · rename_i houter
      split at h
      · rename_i hkind
        obtain ⟨path, hpath, rfl⟩ := Option.map_eq_some_iff.mp h
        obtain ⟨names, hnames, rfl⟩ := Option.map_eq_some_iff.mp hpath
        have hchain : ChainAt file v names.reverse :=
          ⟨by simpa using hkind, fun hinner => houter (isInnerLink_iff.mpr hinner),
            reads_of_chain? hnames⟩
        exact ⟨names.reverse, hchain, rfl⟩
      · cases h
  · rintro ⟨names, hchain, rfl⟩
    have houter : ¬isInnerLink v = true := fun hinner => hchain.outer (isInnerLink_iff.mp hinner)
    rw [accessEdit?, if_neg houter, path?, if_pos (by rw [hchain.member]; rfl),
      hchain.reads.chain?_eq (Nat.le_refl _), Option.map_some, Option.map_some,
      List.reverse_reverse]

theorem isSome_accessEdit?_iff_chainAt {v : Visit} :
    (accessEdit? file v).isSome ↔ ∃ names, ChainAt file v names := by
  rw [Option.isSome_iff_exists]
  constructor
  · rintro ⟨e, he⟩
    obtain ⟨names, hchain, -⟩ := accessEdit?_eq_some_iff.mp he
    exact ⟨names, hchain⟩
  · rintro ⟨names, hchain⟩
    exact ⟨_, accessEdit?_eq_some_iff.mpr ⟨names, hchain, rfl⟩⟩

instance (file : SourceFile) (v : Visit) : Decidable (∃ names, ChainAt file v names) :=
  decidable_of_iff _ isSome_accessEdit?_iff_chainAt

/-- The chains of a file, in document order. -/
def chains (file : SourceFile) : List Visit :=
  file.root.visits.filter fun v => ∃ names, ChainAt file v names

/-- Beside a list, what a partial function makes of it. -/
theorem forall₂_filter_filterMap {α β : Type} {f : α → Option β} {p : α → Bool} {R : α → β → Prop}
    (hp : ∀ a, p a = (f a).isSome) (hR : ∀ a b, f a = some b → R a b) (as : List α) :
    List.Forall₂ R (as.filter p) (as.filterMap f) := by
  induction as with
  | nil => exact .nil
  | cons a as ih =>
    rw [List.filter_cons, hp, List.filterMap_cons]
    cases hf : f a with
    | none => exact ih
    | some b => exact .cons (hR a b hf) ih

/-- The plan has one edit for each chain and those of the declarations. The edit of a chain is over
the whole of it and writes what there is for its path; in a well-formed tree no two of these edits
share a byte. -/
theorem chains_rewritten (file : SourceFile) :
    ∃ edits, plan file = edits ++ retirements file ∧
      List.Forall₂ (Rewrites file) (chains file) edits ∧
      (file.WellFormed → (edits.Pairwise fun a b => a.span.Apart b.span) ∧
        ∀ e ∈ edits, e.span.start < e.span.stop) := by
  refine ⟨file.root.visits.filterMap (accessEdit? file), rfl, ?_, fun hf => ⟨?_, fun e he => ?_⟩⟩
  · refine forall₂_filter_filterMap (fun v => ?_) (fun v e he => ?_) _
    · rw [Bool.eq_iff_iff, decide_eq_true_iff, isSome_accessEdit?_iff_chainAt]
    · obtain ⟨names, hchain, rfl⟩ := accessEdit?_eq_some_iff.mp he
      exact ⟨rfl, names, hchain, writtenFor_replacement _⟩
  · exact (spread_accesses hf).apart
  · obtain ⟨v, hv, hacc⟩ := List.mem_filterMap.mp he
    obtain ⟨-, -, ⟨names, hchain⟩, hspan, -⟩ := accessEdit?_eq_some hacc
    have hn := Node.nests_of_mem hf.nests (Node.node_mem_preorder hv)
    rw [hspan]
    exact start_lt_stop_of_chain? hn hchain

/-- A chain in the subscript of another one, in parentheses and behind the object in brackets. -/
def subscripted : SourceFile :=
  SourceFile.parse
    "f(designTokens.a[designTokens.spacing.logo].b, (designTokens.a.b).c, designTokens[k].d)"

theorem subscripted_rewritten : subscripted.WellFormed ∧
    (chains subscripted).map (·.node.span) = [⟨2, 16⟩, ⟨17, 42⟩, ⟨48, 64⟩] ∧
    ∃ edits, plan subscripted = edits ++ retirements subscripted ∧
      List.Forall₂ (Rewrites subscripted) (chains subscripted) edits ∧
      (edits.Pairwise fun a b => a.span.Apart b.span) ∧
      ∀ e ∈ edits, e.span.start < e.span.stop := by
  have hf : subscripted.WellFormed := by decide +kernel
  obtain ⟨edits, hplan, hrewrites, happly⟩ := chains_rewritten subscripted
  exact ⟨hf, by decide +kernel, edits, hplan, hrewrites, happly hf⟩

end TokenLint.Codemod.LegacyToken
