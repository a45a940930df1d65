import TokenLint.Codemod.LegacyToken
import TokenLint.Proofs.Edit.Spread

/-!
# Edits at accesses to the legacy object

An access is a chain of members that begins at the object. Below a chain all members are inner
links of it, so two whole accesses are apart.
-/
namespace TokenLint.Codemod.LegacyToken

open Source Text EditPlan

variable {file : SourceFile}

/-- The two nodes of a member that are no comments. -/
theorem member_parts {n : Node} (hn : n.Shaped) (hk : n.kind = .member) {o p : Node}
    (ho : n.child? .object = some o) (hok : o.kind ≠ .comment)
    (hp : n.child? .property = some p) (hpk : p.kind ≠ .comment) :
    ∀ c ∈ n.children, c.kind = .comment ∨ c = o ∨ c = p := by
  have hroles := hn.member hk
  obtain ⟨ho, hor⟩ := Node.mem_children_of_child? ho
  obtain ⟨hp, hpr⟩ := Node.mem_children_of_child? hp
  have hmem : ∀ c ∈ n.children, c.kind ≠ .comment → c ∈ n.children.filter (·.kind ≠ .comment) :=
    fun c hc hck => List.mem_filter.mpr ⟨hc, by simpa using hck⟩
  have hom := hmem o ho hok
  have hpm := hmem p hp hpk
  obtain ⟨x, rest, hx, hxr, hrest⟩ := List.map_eq_cons_iff.mp hroles
  obtain ⟨y, none, rfl, hyr, hnone⟩ := List.map_eq_cons_iff.mp hrest
  obtain rfl := List.map_eq_nil_iff.mp hnone
  rw [hx] at hom hpm
  have hox : o = x := by
    rcases List.mem_cons.mp hom with h | h
    · exact h
    · rw [List.mem_singleton.mp h, hyr] at hor
      cases hor
  have hpy : p = y := by
    rcases List.mem_cons.mp hpm with h | h
    · rw [h, hxr] at hpr
      cases hpr
    · exact List.mem_singleton.mp h
  intro c hc
  by_cases hck : c.kind = .comment
  · exact Or.inl hck
  · have hcm := hmem c hc hck
    rw [hx] at hcm
    rw [hox, hpy]
    exact Or.inr (by simpa using hcm)

theorem kind_of_isOldName {n : Node} (h : isOldName file n) : n.kind = .identifier := by
  unfold isOldName at h
  simpa using (Bool.and_eq_true_iff.mp h).1

/-- A chain is the object's name, or a plain property of what a shorter chain reads. -/
theorem chain?_succ {links : Nat} {n : Node} {names : List String}
    (h : chain? file (links + 1) n = some names) :
    (isOldName file n ∧ names = []) ∨ n.kind = .member ∧ ∃ o p inner, n.child? .object = some o ∧
      n.child? .property = some p ∧ p.kind = .propertyName ∧
      chain? file links o = some inner ∧ names = file.nodeText p :: inner := by
  rw [chain?] at h
  split at h
  · rename_i hk
    obtain ⟨p, hp, h⟩ := Option.bind_eq_some_iff.mp h
    obtain ⟨o, ho, h⟩ := Option.bind_eq_some_iff.mp h
    split at h
    · rename_i hpk
      obtain ⟨inner, hinner, h⟩ := Option.bind_eq_some_iff.mp h
      exact .inr ⟨by simpa using hk, o, p, inner, ho, hp, by simpa using hpk, hinner,
        (Option.some.inj h).symm⟩
    · cases h
  · split at h
    · rename_i hold
      exact .inl ⟨hold, (Option.some.inj h).symm⟩
    · cases h

/-- A chain is no comment. -/
theorem kind_of_chain? {links : Nat} {n : Node} {names : List String}
    (h : chain? file links n = some names) : n.kind ≠ .comment := by
  cases links with
  | zero => cases h
  | succ links =>
    rcases chain?_succ h with ⟨hold, -⟩ | ⟨hk, -⟩
    · rw [kind_of_isOldName hold]
      decide
    · rw [hk]
      decide

/-- Only members are accessed. -/
theorem accessEdit?_eq_some {v : Visit} {e : Edit} (h : accessEdit? file v = some e) :
    isInnerLink v = false ∧ v.node.kind = .member ∧
      (∃ names, chain? file v.node.count v.node = some names) ∧ e.span = v.node.span ∧
      ∃ path, e.text = replacement path := by
  unfold accessEdit? at h
  split at h
  · cases h
  · rename_i hlink
    obtain ⟨path, hpath, rfl⟩ := Option.map_eq_some_iff.mp h
    unfold path? at hpath
    split at hpath
    · rename_i hk
      obtain ⟨names, hnames, -⟩ := Option.map_eq_some_iff.mp hpath
      exact ⟨by simpa using hlink, by simpa using hk, ⟨names, hnames⟩, rfl, path, rfl⟩
    · cases hpath

/-- Below a chain there is no whole access. -/
theorem no_access_inside {links : Nat} : ∀ {n : Node} {names : List String},
    (∀ m ∈ n.preorder, m.Shaped) → chain? file links n = some names → ∀ (parent : Option Node),
    ∀ w ∈ Visit.inside ⟨parent, n⟩, accessEdit? file w = none := by
  induction links with
  | zero => exact fun _ h => by cases h
  | succ links ih =>
    intro n names hshape h parent w hw
    have hn := hshape n (Node.mem_preorder_self n)
    obtain ⟨c, hc, hwc⟩ := List.mem_flatMap.mp hw
    rw [Visit.subtree_eq] at hwc
    refine Option.eq_none_iff_forall_ne_some.mpr fun e he => ?_
    obtain ⟨hlink, hwk, -⟩ := accessEdit?_eq_some he
    have hleaf : c.kind ∈ Node.leafKinds → False := by
      intro hck
      have hcn := (hshape c (Node.mem_preorder_of_mem_children hc)).leaf hck
      rcases List.mem_cons.mp hwc with rfl | hbelow
      · rw [hwk] at hck
        revert hck
        decide
      · rw [Visit.inside, hcn] at hbelow
        cases hbelow
    rcases chain?_succ h with ⟨hold, -⟩ | ⟨hk, o, p, inner, ho, hp, hpk, hinner, -⟩
    · have hnone := hn.leaf (by rw [kind_of_isOldName hold]; decide)
      rw [hnone] at hc
      cases hc
    · have hpc : p.kind ≠ .comment := by rw [hpk]; decide
      rcases member_parts hn hk ho (kind_of_chain? hinner) hp hpc c hc with hck | rfl | rfl
      · exact hleaf (by rw [hck]; decide)
      · rcases List.mem_cons.mp hwc with rfl | hbelow
        · have hrole := (Node.mem_children_of_child? ho).2
          simp [isInnerLink, hk, hrole] at hlink
        · have hoshape : ∀ m ∈ c.preorder, m.Shaped := fun m hm =>
            hshape m (Node.mem_preorder_trans (Node.mem_preorder_of_mem_children hc) hm)
          rw [ih hoshape hinner (some n) w hbelow] at he
          cases he
      · exact hleaf (by rw [hpk]; decide)

theorem spread_accesses (hf : file.WellFormed) :
    Spread file.text.toList (file.root.visits.filterMap (accessEdit? file)) := by
  constructor
  · intro e he
    obtain ⟨v, hv, hacc⟩ := List.mem_filterMap.mp he
    obtain ⟨-, -, -, hspan, -⟩ := accessEdit?_eq_some hacc
    have hnode := Node.node_mem_preorder hv
    rw [hspan]
    exact (hf.aligned v.node hnode).isRange (hf.nests v.node hnode)
  · refine List.pairwise_filterMap.mpr ((Node.pairwise_visits hf.nests).imp_of_mem ?_)
    intro v w hv _ hvw a ha b hb
    obtain ⟨-, -, ⟨names, hchain⟩, haspan, -⟩ := accessEdit?_eq_some ha
    obtain ⟨-, -, -, hbspan, -⟩ := accessEdit?_eq_some hb
    rw [haspan, hbspan]
    rcases hvw with hbefore | hinside
    · exact Or.inl hbefore
    · have hshape : ∀ m ∈ v.node.preorder, m.Shaped := fun m hm =>
        hf.shaped m (Node.mem_preorder_trans (Node.node_mem_preorder hv) hm)
      rw [no_access_inside hshape hchain v.parent w hinside] at hb
      cases hb

/-- The text of an empty range is empty. -/
theorem start_lt_stop_of_isOldName {n : Node} (h : isOldName file n) : n.start < n.stop := by
  have htext : file.nodeText n = oldName := by
    unfold isOldName at h
    simpa using (Bool.and_eq_true_iff.mp h).2
  refine Nat.lt_of_not_le fun hle => ?_
  have hnone : (slice? file.text.toList n.start n.stop).getD [] = [] := by
    unfold slice?
    split
    · rw [Nat.sub_eq_zero_of_le hle]
      cases drop? file.text.toList n.start with
      | none => rfl
      | some rest => cases rest <;> rfl
    · rfl
  have hempty : file.nodeText n = "" := by
    unfold SourceFile.nodeText SourceFile.slice Text.slice
    rw [Node.span, hnone]
  rw [hempty] at htext
  revert htext
  decide

/-- An access is not empty: the object's name is part of it. -/
theorem start_lt_stop_of_chain? {links : Nat} : ∀ {n : Node} {names : List String},
    (∀ m ∈ n.preorder, m.Nests) → chain? file links n = some names → n.start < n.stop := by
  induction links with
  | zero => exact fun _ h => by cases h
  | succ links ih =>
    intro n names hn h
    rcases chain?_succ h with ⟨hold, -⟩ | ⟨-, o, -, inner, ho, -, -, hinner, -⟩
    · exact start_lt_stop_of_isOldName hold
    · have hmem := (Node.mem_children_of_child? ho).1
      have hon := Node.nests_of_mem hn (Node.mem_preorder_of_mem_children hmem)
      have hlt := ih hon hinner
      have hwithin := (hn n (Node.mem_preorder_self n)).child_within hmem
      exact Nat.lt_of_le_of_lt hwithin.1 (Nat.lt_of_lt_of_le hlt hwithin.2)

theorem replacement_ne_empty (path : String) : replacement path ≠ "" := by
  unfold replacement
  split <;> intro h
  · exact absurd (String.append_eq_empty_iff.mp h).2 (by decide)
  · have hdot := (String.append_eq_empty_iff.mp (String.append_eq_empty_iff.mp h).1).2
    exact absurd hdot (by decide)

end TokenLint.Codemod.LegacyToken
