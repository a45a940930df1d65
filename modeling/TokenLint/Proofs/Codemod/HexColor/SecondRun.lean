import TokenLint.Proofs.Codemod.HexColor.Comment

/-!
# Literals in a second run

The edits of a file's literals are apart, and no edit of one reaches into the comment before
another. So all literals are settled after them, and a second run finds nothing.
-/
namespace TokenLint.Codemod.HexColor

open Source Text EditPlan

variable {file file' : SourceFile} {n : Node} {inAttribute : Bool}

/-- The edits at a node. -/
def editsAt (file : SourceFile) (v : Visit) : EditPlan :=
  planLiteral file (isInAttribute v) v.node

theorem planLiteral_of_not_plain (h : isPlain n = false) : planLiteral file inAttribute n = [] := by
  rw [planLiteral, h]
  rfl

theorem isPlain_of_mem {v : Visit} {e : Edit} (he : e ∈ editsAt file v) : isPlain v.node := by
  cases hplain : isPlain v.node with
  | true => rfl
  | false =>
    rw [editsAt, planLiteral_of_not_plain hplain] at he
    cases he

/-- The marks that a literal may end with. -/
def closingMarks : List Char := ['"', '\'', '\x60']

/-- Literals that have colors end with a mark. -/
def Closed (file : SourceFile) : Prop :=
  ∀ n ∈ file.root.preorder, isPlain n → scan (file.slice n.content) ≠ none →
    ∃ q ∈ closingMarks, (file.slice n.span).toList.getLast? = some q

instance (file : SourceFile) : Decidable (Closed file) :=
  decidable_of_iff
    (∀ n ∈ file.root.preorder, isPlain n → scan (file.slice n.content) ≠ none →
      closingMarks.any fun q => (file.slice n.span).toList.getLast? == some q)
    (by simp only [Closed, List.any_eq_true, beq_iff_eq])

/-- The second file has the text that the plan makes of the first one, and no plain literals but
those of the first one. -/
structure Rereads (file file' : SourceFile) : Prop where
  text : file'.text = (plan file).apply file.text
  only : ∀ n' ∈ file'.root.preorder, isPlain n' →
    ∃ n ∈ file.root.preorder, isPlain n ∧ n'.span = (plan file).image n.span

/-- A comment before a literal begins behind all marks that literals end with. -/
theorem stop_le_of_mark {m : Node} {q : Char} {before blanks : List Char} (hq : q ∈ closingMarks)
    (hlast : (file.slice m.span).toList.getLast? = some q) (hle : m.stop ≤ n.start)
    (hcut : (file.slice ⟨0, n.start⟩).toList = before ++ markerEnd.toList ++ blanks)
    (hblanks : ∀ c ∈ blanks, isBlank c) : m.stop ≤ size before := by
  have hmark : q ∉ markerEnd.toList ++ blanks := by
    have hall : ∀ q ∈ closingMarks, q ∉ markerEnd.toList ∧ isBlank q = false := by
      simp only [closingMarks, List.forall_mem_cons]
      exact ⟨by decide +kernel, by decide +kernel, by decide +kernel, by simp⟩
    obtain ⟨hend, hblank⟩ := hall q hq
    refine fun hmem => (List.mem_append.mp hmem).elim hend fun hmem => ?_
    rw [hblanks q hmem] at hblank
    cases hblank
  obtain ⟨inner, hinner⟩ := List.getLast?_eq_some_iff.mp hlast
  obtain ⟨front, back, htext, -, hstop⟩ :=
    exists_cut_of_slice (String.toList_inj.mp (hinner.trans String.toList_ofList.symm)) (by simp)
  rw [List.append_assoc] at hcut
  obtain ⟨none, rest, htext', hnone, hstart⟩ :=
    exists_cut_of_slice (String.toList_inj.mp (hcut.trans String.toList_ofList.symm)) (by
      simp [markerEnd])
  obtain rfl : none = [] := eq_nil_of_size hnone
  refine Nat.le_of_not_lt fun hlt => hmark ?_
  -- the mark would stand in the comment
  rw [htext, List.nil_append, ← List.append_assoc] at htext'
  simp only [size_append, size_cons, size_nil, Node.span] at hstop hstart hlt
  obtain ⟨mid, hmid, -⟩ :=
    exists_mid htext' (by simp only [size_append, size_cons, size_nil]; omega)
  have hparts : before ++ (markerEnd.toList ++ blanks) = (front ++ inner) ++ q :: mid :=
    hmid.trans (by simp)
  rcases List.append_eq_append_iff.mp hparts with ⟨tail, htail, hrest⟩ | ⟨tail, htail, hrest⟩
  · rw [hrest]
    simp
  · cases tail with
    | nil =>
      rw [List.nil_append] at hrest
      rw [← hrest]
      simp
    | cons c tail =>
      obtain ⟨rfl, -⟩ := List.cons.inj hrest
      rw [htail] at hlt
      simp only [size_append, size_cons] at hlt
      omega

section
variable (hf : file.WellFormed)
include hf

/-- No edit of an earlier literal reaches into a comment before a later one: the mark at the end
of the earlier one is no part of the comment. -/
theorem spares_of_closed (hclosed : Closed file) {before : List Visit}
    (hbefore : ∀ u ∈ before, u.node ∈ file.root.preorder ∧
      (isPlain u.node → u.node.stop ≤ n.start)) :
    Spares file n (before.flatMap (editsAt file)) := by
  intro text blanks hcut hblanks e he
  obtain ⟨u, hu, he⟩ := List.mem_flatMap.mp he
  obtain ⟨hmem, hstop⟩ := hbefore u hu
  have hplain := isPlain_of_mem he
  have hscan : scan (file.slice u.node.content) ≠ none := by
    intro hnone
    rw [editsAt, planLiteral, hplain, hnone] at he
    cases he
  obtain ⟨q, hq, hlast⟩ := hclosed u.node hmem hplain hscan
  have hwithin := (placed_planLiteral (hf.nests _ hmem) (hf.aligned _ hmem)).within e he
  exact Nat.le_trans hwithin.2 (stop_le_of_mark hq hlast (hstop hplain) hcut hblanks)

/-- Nothing is inside of a literal, so of the nodes that are come to before it the literals end
before it, and those that are come to later begin behind it. -/
theorem exists_visits_around {v : Visit} (hv : v ∈ file.root.visits) (hplain : isPlain v.node) :
    ∃ before behind : List Visit, file.root.visits = before ++ v :: behind ∧
      (∀ u ∈ before, isPlain u.node → u.node.stop ≤ v.node.start) ∧
      ∀ w ∈ behind, v.node.stop ≤ w.node.start := by
  have hinside : ∀ u ∈ file.root.visits, isPlain u.node → u.inside = [] := by
    intro u hu hplain
    have hshaped := hf.shaped u.node (Node.node_mem_preorder hu)
    rw [Visit.inside, children_of_isPlain hshaped hplain]
    rfl
  have hpairwise := Node.pairwise_visits hf.nests
  obtain ⟨before, behind, hvisits⟩ := List.append_of_mem hv
  rw [hvisits] at hpairwise hinside
  obtain ⟨-, hlater, hearlier⟩ := List.pairwise_append.mp hpairwise
  refine ⟨before, behind, hvisits, fun u hu huplain => ?_, fun w hw => ?_⟩
  · refine (hearlier u hu v List.mem_cons_self).resolve_right fun h => ?_
    rw [hinside u (List.mem_append_left _ hu) huplain] at h
    cases h
  · refine ((List.pairwise_cons.mp hlater).1 w hw).resolve_right fun h => ?_
    rw [hinside v (by simp) hplain] at h
    cases h

theorem among_of_mem {v : Visit} (hv : v ∈ file.root.visits) (hplain : isPlain v.node) :
    ∃ before behind : List Visit, Among file (isInAttribute v) v.node
      (before.flatMap (editsAt file)) (behind.flatMap (editsAt file)) (plan file) ∧
      ∀ u ∈ before, u.node ∈ file.root.preorder ∧
        (isPlain u.node → u.node.stop ≤ v.node.start) := by
  obtain ⟨before, behind, hvisits, hstop, hstart⟩ := exists_visits_around hf hv hplain
  have hplan : plan file =
      before.flatMap (editsAt file) ++ (editsAt file v ++ behind.flatMap (editsAt file)) := by
    rw [← List.flatMap_cons, ← List.flatMap_append, ← hvisits]
    rfl
  have hnode : ∀ u ∈ before ++ v :: behind, u.node ∈ file.root.preorder :=
    fun u hu => Node.node_mem_preorder (hvisits ▸ hu)
  have hplaced : ∀ u ∈ before ++ v :: behind, ∀ e ∈ editsAt file u, e.span.Within u.node.span :=
    fun u hu => (placed_planLiteral (hf.nests _ (hnode u hu)) (hf.aligned _ (hnode u hu))).within
  have hself : v ∈ before ++ v :: behind := by simp
  refine ⟨before, behind, ⟨spread_plan hf, hplan, fun e he => ?_, fun e he => ?_, hplain,
    hf.nests _ (hnode v hself), hf.aligned _ (hnode v hself)⟩,
    fun u hu => ⟨hnode u (List.mem_append_left _ hu), hstop u hu⟩⟩
  · obtain ⟨u, hu, he⟩ := List.mem_flatMap.mp he
    have hwithin := hplaced u (List.mem_append_left _ hu) e he
    exact Nat.le_trans hwithin.2 (hstop u hu (isPlain_of_mem he))
  · obtain ⟨w, hw, he⟩ := List.mem_flatMap.mp he
    have hwithin := hplaced w (by simp [hw]) e he
    exact Nat.le_trans (hstart w hw) hwithin.1

theorem plan_reread_eq_nil (hclosed : Closed file) (h : Rereads file file') : plan file' = [] := by
  refine List.flatMap_eq_nil_iff.mpr fun v' hv' => ?_
  cases hplain : isPlain v'.node with
  | false => exact planLiteral_of_not_plain hplain
  | true =>
    obtain ⟨n, hn, hnplain, hspan⟩ := h.only v'.node (Node.node_mem_preorder hv') hplain
    obtain ⟨v, hv, rfl⟩ := Node.exists_visit hn
    obtain ⟨before, behind, hamong, hbefore⟩ := among_of_mem hf hv hnplain
    exact planLiteral_of_settled
      (hamong.settled (spares_of_closed hf hclosed hbefore) h.text hspan)

end

/-- After its edits a literal, wherever it stands and whatever is before it, has tokens for its
known colors, and is passed over: no color in it is known, and if there are others the comment is
before it. So a second run has nothing to do in a file that has the literals of the first one. -/
theorem literals_settled :
    (∀ (file : SourceFile) (inAttribute : Bool) (n : Node), isPlain n → n.Nests →
      n.Aligned file.text.toList → ∀ (file' : SourceFile) (n' : Node),
        file'.text = (planLiteral file inAttribute n).apply file.text →
        n'.span = (planLiteral file inAttribute n).image n.span →
        (file'.slice n'.content).toList = tokenized (file.slice n.content).toList ∧
        Settled file' n' ∧ ∀ inAttribute', planLiteral file' inAttribute' n' = []) ∧
    ∀ file file' : SourceFile, file.WellFormed → Closed file → Rereads file file' →
      plan file' = [] := by
  refine ⟨fun file inAttribute n hplain hn ha file' n' htext hspan => ?_,
    fun file file' hf hclosed h => plan_reread_eq_nil hf hclosed h⟩
  have hamong : Among file inAttribute n [] [] _ := among_singleton hplain hn ha
  have hsettled := hamong.settled (fun _ _ _ _ e he => by cases he) htext hspan
  exact ⟨hamong.slice_content_image htext hspan, hsettled, fun _ => planLiteral_of_settled hsettled⟩

/-- A known color and an unknown one in the value of an attribute. -/
def tinted : SourceFile := SourceFile.parse "a=<p x='#22c55e #123'/>"

/-- The file that the first run leaves of it. -/
def tintedAgain : SourceFile :=
  SourceFile.parse ("a=<p x=\x7b/* TODO(ds-migration): replace #123 " ++
    "with semantic design tokens */ 'hsl(var(--success)) #123'\x7d/>")

theorem tinted_settled :
    (isPlain (.mk .string .item 7 21 []) ∧ Node.Nests (.mk .string .item 7 21 []) ∧
      Node.Aligned tinted.text.toList (.mk .string .item 7 21 []) ∧
      tintedAgain.text = (planLiteral tinted true (.mk .string .item 7 21 [])).apply tinted.text ∧
      Node.span (.mk .string .item 75 101 []) =
        (planLiteral tinted true (.mk .string .item 7 21 [])).image
          (Node.span (.mk .string .item 7 21 [])) ∧
      Settled tintedAgain (.mk .string .item 75 101 [])) ∧
    tinted.WellFormed ∧ Closed tinted ∧ Rereads tinted tintedAgain ∧ plan tintedAgain = [] := by
  have hplan : plan tinted = [⟨⟨8, 20⟩, "hsl(var(--success)) #123"⟩,
      .insert 7 "\x7b/* TODO(ds-migration): replace #123 with semantic design tokens */ ",
      .insert 21 "\x7d"] := by decide +kernel
  have hliteral : planLiteral tinted true (.mk .string .item 7 21 []) = plan tinted := by
    rw [hplan]
    decide +kernel
  have htext : tintedAgain.text = (plan tinted).apply tinted.text := by
    rw [hplan, EditPlan.apply_eq_insertionSort (by decide)]
    decide +kernel
  have hspan : Node.span (.mk .string .item 75 101 []) =
      (plan tinted).image (Node.span (.mk .string .item 7 21 [])) := by
    rw [hplan]
    decide +kernel
  have honly : ∀ n' ∈ tintedAgain.root.preorder, isPlain n' →
      ∃ n ∈ tinted.root.preorder, isPlain n ∧ n'.span = (plan tinted).image n.span := by
    rw [hplan]
    decide +kernel
  have hf : tinted.WellFormed := by decide +kernel
  have hclosed : Closed tinted := by decide +kernel
  have hplain : isPlain (.mk .string .item 7 21 []) := by decide
  have hn : Node.Nests (.mk .string .item 7 21 []) := by decide
  have ha : Node.Aligned tinted.text.toList (.mk .string .item 7 21 []) := by decide +kernel
  have h : Rereads tinted tintedAgain := ⟨htext, honly⟩
  rw [← hliteral] at htext hspan
  have hone := literals_settled.1 tinted true _ hplain hn ha tintedAgain _ htext hspan
  exact ⟨⟨hplain, hn, ha, htext, hspan, hone.2.1⟩, hf, hclosed, h,
    literals_settled.2 tinted tintedAgain hf hclosed h⟩

end TokenLint.Codemod.HexColor
