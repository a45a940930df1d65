import TokenLint.Codemod.HexColor
import TokenLint.Proofs.Edit.Spread

/-!
# Edits at literals

A literal that is changed has no nodes below it. Its text is replaced between its marks, and the
comment and the braces go to its ends.
-/
namespace TokenLint.Codemod.HexColor

open Source Text EditPlan

variable {file : SourceFile} {n : Node}

theorem kind_of_isPlain (h : isPlain n) : n.kind = .string ∨ n.kind = .template := by
  unfold isPlain at h
  rcases Bool.or_eq_true_iff.mp h with hk | hk
  · exact Or.inl (by simpa using hk)
  · exact Or.inr (by simpa using (Bool.and_eq_true_iff.mp hk).1)

/-- A literal whose text is all its own is a leaf of the tree. -/
theorem children_of_isPlain (hn : n.Shaped) (h : isPlain n) : n.children = [] := by
  unfold isPlain at h
  rcases Bool.or_eq_true_iff.mp h with hk | hk
  · have hstring : n.kind = .string := by simpa using hk
    exact hn.leaf (by rw [hstring]; decide)
  · obtain ⟨hk, hnone⟩ := Bool.and_eq_true_iff.mp hk
    have hall := hn.template (by simpa using hk)
    have hnil : n.children.filter (·.kind == .substitution) = [] := List.isEmpty_iff.mp hnone
    refine List.eq_nil_iff_forall_not_mem.mpr fun c hc => ?_
    have hmem : c ∈ n.children.filter (·.kind == .substitution) :=
      List.mem_filter.mpr ⟨hc, by simpa using hall c hc⟩
    rw [hnil] at hmem
    cases hmem

/-- The comment and the braces are put at the ends of the literal. -/
theorem mem_mark {inAttribute : Bool} {unknown : List String} {e : Edit}
    (h : e ∈ mark inAttribute n unknown) :
    e.span = ⟨n.start, n.start⟩ ∨ e.span = ⟨n.stop, n.stop⟩ := by
  unfold mark at h
  split at h
  · simp only [List.mem_cons, List.not_mem_nil, or_false] at h
    rcases h with rfl | rfl
    · exact Or.inl rfl
    · exact Or.inr rfl
  · obtain rfl := List.mem_singleton.mp h
    exact Or.inl rfl

theorem mark_apart (hn : n.Nests) (inAttribute : Bool) (unknown : List String) :
    (mark inAttribute n unknown).Pairwise fun a b => a.span.Apart b.span := by
  unfold mark
  split
  · refine List.pairwise_cons.mpr ⟨fun b hb => ?_, List.pairwise_singleton _ _⟩
    obtain rfl := List.mem_singleton.mp hb
    exact Or.inl hn.ordered
  · exact List.pairwise_singleton _ _

theorem placed_mark {cs : List Char} (hn : n.Nests) (ha : n.Aligned cs) (inAttribute : Bool)
    (unknown : List String) : Placed cs n.span (mark inAttribute n unknown) := by
  refine ⟨⟨fun e he => ?_, mark_apart hn inAttribute unknown⟩, fun e he => ?_⟩
  · rcases mem_mark he with hspan | hspan
    · rw [hspan]
      exact ha.start.isRange
    · rw [hspan]
      exact ha.stop.isRange
  · rcases mem_mark he with hspan | hspan
    · rw [hspan]
      exact hn.start_within
    · rw [hspan]
      exact hn.stop_within

theorem placed_planLiteral {inAttribute : Bool} (hn : n.Nests)
    (ha : n.Aligned file.text.toList) :
    Placed file.text.toList n.span (planLiteral file inAttribute n) := by
  unfold planLiteral
  split
  · exact placed_nil _
  · rename_i hplain
    have hkind := kind_of_isPlain (n := n) (by simpa using hplain)
    split
    · exact placed_nil _
    · rename_i found _
      have hcontent := Node.content_within hn
      have hmark : Placed file.text.toList n.span (if found.unknown.isEmpty ||
          isMarked file n.start then [] else mark inAttribute n found.unknown) := by
        split
        · exact placed_nil _
        · exact placed_mark hn ha inAttribute found.unknown
      cases found.revised with
      | none => exact hmark
      | some text =>
        refine hmark.cons (ha.content_isRange hkind) hcontent fun e he => ?_
        split at he
        · cases he
        · rcases mem_mark he with hspan | hspan
          · rw [hspan]
            exact Or.inr hcontent.1
          · rw [hspan]
            exact Or.inl hcontent.2

theorem spread_plan (hf : file.WellFormed) : Spread file.text.toList (plan file) := by
  refine spread_flatMap Visit.node (fun v hv => ?_) ?_
  · have hnode := Node.node_mem_preorder hv
    exact placed_planLiteral (hf.nests v.node hnode) (hf.aligned v.node hnode)
  · refine (Node.pairwise_visits hf.nests).imp_of_mem fun {v w} hv _ hvw => hvw.imp_right ?_
    intro hinside _ a ha
    have hshape := hf.shaped v.node (Node.node_mem_preorder hv)
    unfold planLiteral at ha
    split at ha
    · cases ha
    · rename_i hplain
      have hleaf := children_of_isPlain hshape (by simpa using hplain)
      have hbelow := Visit.node_mem_inside hinside
      rw [Node.inside_of_leaf hleaf] at hbelow
      cases hbelow

end TokenLint.Codemod.HexColor
