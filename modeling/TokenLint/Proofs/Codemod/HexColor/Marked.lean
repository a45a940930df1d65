import TokenLint.Proofs.Edit.Written
import TokenLint.Proofs.Rule.ArbitraryValue
import TokenLint.Proofs.Codemod.HexColor.SecondRun
import TokenLint.Proofs.Source.Marks

/-!
# Texts of a marked file

The edits of literals reach no other text. So after them a literal reads with tokens for its known
colors, and a name or a part of a template with interpolations reads as before.
-/
namespace TokenLint

open Source Text EditPlan Codemod.HexColor

/-- The name of an attribute holds no literal, and an interpolation has marks of its own at both
ends, inside the template and around the literals that are in it. -/
structure SourceFile.Delimited (file : SourceFile) : Prop where
  label : ∀ n ∈ file.root.preorder, n.kind = .jsxAttribute → ∀ c ∈ n.children.head?,
    c.kind ≠ .jsxAttribute ∧ ∀ m ∈ c.preorder, isPlain m = false
  interpolation : ∀ t ∈ file.root.preorder, t.kind = .template → ∀ s ∈ t.children,
    t.start < s.start ∧ s.stop < t.stop ∧
      ∀ m ∈ s.inside, isPlain m → s.start < m.start ∧ m.stop < s.stop

instance (file : SourceFile) : Decidable file.Delimited :=
  decidable_of_iff
    ((∀ n ∈ file.root.preorder, n.kind = .jsxAttribute → ∀ c ∈ n.children.head?,
      c.kind ≠ .jsxAttribute ∧ ∀ m ∈ c.preorder, isPlain m = false) ∧
    ∀ t ∈ file.root.preorder, t.kind = .template → ∀ s ∈ t.children,
      t.start < s.start ∧ s.stop < t.stop ∧
        ∀ m ∈ s.inside, isPlain m → s.start < m.start ∧ m.stop < s.stop)
    ⟨fun ⟨a, b⟩ => ⟨a, b⟩, fun h => ⟨h.label, h.interpolation⟩⟩

namespace Codemod.HexColor
open Source.Node

variable {file file' : SourceFile} {n t m : Node}

/-- Whether the plan puts a comment before a literal. -/
def gains (file : SourceFile) (n : Node) : Bool := isPlain n && !(remark file n false).isEmpty

/-- The second file has the text that the plan makes of the first one, and the nodes of the first
one with the comments put in. -/
structure Marked (p : Places) (file file' : SourceFile) : Prop where
  text : file'.text = (plan file).apply file.text
  program : file'.root.kind = .program
  children : file'.root.children = file.root.children.flatMap fun c =>
    noted (gains file) p .program true c (c.annotate (gains file) p)
  places : ∀ n ∈ file.root.preorder, n.kind ≠ .jsxAttribute → p.node n = (plan file).image n.span

section
variable (hf : file.WellFormed)
include hf

/-- Every edit is at one of the literals. -/
theorem exists_literal {e : Edit} (he : e ∈ plan file) :
    ∃ m ∈ file.root.preorder, isPlain m ∧ e.span.Within m.span := by
  obtain ⟨v, hv, he⟩ := List.mem_flatMap.mp he
  have hmem := Node.node_mem_preorder hv
  exact ⟨v.node, hmem, isPlain_of_mem he,
    (placed_planLiteral (hf.nests _ hmem) (hf.aligned _ hmem)).within e he⟩

/-- Apart from the literals the text is kept. -/
theorem slice_image (htext : file'.text = (plan file).apply file.text) {s : Span}
    (hs : IsRange file.text.toList s)
    (hapart : ∀ m ∈ file.root.preorder, isPlain m → m.span.Apart s) :
    file'.slice ((plan file).image s) = file.slice s := by
  rw [SourceFile.slice, htext]
  refine (spread_plan hf).slice_image_of_apart hs fun e he => ?_
  obtain ⟨m, hm, hplain, hwithin⟩ := exists_literal hf he
  exact (hapart m hm hplain).mono hwithin (Span.Within.refl _)

/-- A node without literals is apart from them all. -/
theorem apart_of_no_literal (hn : n ∈ file.root.preorder)
    (hnone : ∀ m ∈ n.preorder, isPlain m = false) :
    ∀ m ∈ file.root.preorder, isPlain m → m.span.Apart n.span := by
  intro m hm hplain
  have hleaf := children_of_isPlain (hf.shaped m hm) hplain
  refine ((apart_or_within_of_leaf hf.nests hn hm hleaf).resolve_right fun hmem => ?_).symm
  rw [hnone m hmem] at hplain
  cases hplain

theorem no_literal_of_leaf (hn : n ∈ file.root.preorder) (hleaf : n.kind ∈ leafKinds)
    (hne : n.kind ≠ .string) : ∀ m ∈ n.preorder, isPlain m = false := by
  intro m hm
  rw [Node.mem_preorder, inside_of_leaf ((hf.shaped n hn).leaf hleaf)] at hm
  rcases hm with rfl | hm
  · have htemplate : m.kind ≠ .template := fun hk => by
      rw [hk] at hleaf
      revert hleaf
      decide
    simp [isPlain, hne, htemplate]
  · cases hm

/-! ### A template with interpolations -/

variable (hd : file.Delimited)
include hd

/-- A literal is outside a template, or strictly inside one of its interpolations. -/
theorem literal_beside_template (ht : t ∈ file.root.preorder) (hk : t.kind = .template)
    (hother : isPlain t = false) (hm : m ∈ file.root.preorder) (hplain : isPlain m) :
    m.span.Apart t.span ∨ ∃ s ∈ t.children, s.start < m.start ∧ m.stop < s.stop := by
  have hleaf := children_of_isPlain (hf.shaped m hm) hplain
  refine (apart_or_within_of_leaf hf.nests ht hm hleaf).imp Span.Apart.symm fun hmem => ?_
  have hinside : m ∈ t.inside := by
    refine (Node.mem_preorder.mp hmem).resolve_left fun heq => ?_
    rw [heq, hother] at hplain
    cases hplain
  obtain ⟨s, hs, hms⟩ := Node.mem_inside.mp hinside
  have hsub := (hf.shaped t ht).template hk s hs
  have hne : m.kind ≠ s.kind := by
    rw [hsub]
    rcases kind_of_isPlain hplain with h | h <;> simp [h]
  exact ⟨s, hs, (hd.interpolation t ht hk s hs).2.2 m (mem_inside_of_kind_ne hms hne) hplain⟩

theorem lined_substitutions (ht : t ∈ file.root.preorder) (hk : t.kind = .template)
    (hother : isPlain t = false) :
    t.substitutions = t.children ∧ Lined t.children (t.start + 1) (t.stop - 1) := by
  have hsub : t.substitutions = t.children :=
    List.filter_eq_self.mpr fun s hs => by simp [(hf.shaped t ht).template hk s hs]
  have hin : ∀ s ∈ t.children, t.start + 1 ≤ s.start ∧ s.start ≤ s.stop ∧ s.stop ≤ t.stop - 1 := by
    intro s hs
    obtain ⟨hstart, hstop, -⟩ := hd.interpolation t ht hk s hs
    have hle := (hf.nests s (Node.mem_preorder_child ht hs)).ordered
    omega
  refine ⟨hsub, ?_, hin, (hf.nests t ht).apart⟩
  obtain ⟨s, hs⟩ : ∃ s, s ∈ t.children := by
    refine List.exists_mem_of_ne_nil _ fun hnil => ?_
    rw [isPlain, hsub, hnil, hk] at hother
    cases hother
  have hs := hin s hs
  omega

section
variable (ht : t ∈ file.root.preorder) (hk : t.kind = .template) (hother : isPlain t = false)
include ht hk hother

/-- No edit touches a place in a template that is outside of its interpolations. -/
theorem untouched_in_template {offset : Nat} (hstart : t.start + 1 ≤ offset)
    (hstop : offset ≤ t.stop - 1) (hout : ∀ s ∈ t.children, offset ≤ s.start ∨ s.stop ≤ offset) :
    (plan file).Untouched offset := by
  intro e he
  obtain ⟨m, hm, hplain, hwithin⟩ := exists_literal hf he
  unfold Span.Within Node.span at hwithin
  rcases literal_beside_template hf hd ht hk hother hm hplain with hapart | ⟨s, hs, hbegin, hend⟩
  · unfold Span.Apart Node.span at hapart
    dsimp only at hapart hwithin
    omega
  · have hside := hout s hs
    dsimp only at hwithin
    omega

/-- The ends of the interpolations, and what is next to the marks of the template. -/
theorem untouched_ends : (plan file).Untouched (t.start + 1) ∧ (plan file).Untouched (t.stop - 1) ∧
    ∀ s ∈ t.children, (plan file).Untouched s.start ∧ (plan file).Untouched s.stop := by
  obtain ⟨-, hlined⟩ := lined_substitutions hf hd ht hk hother
  have hfree : ∀ {offset}, t.start + 1 ≤ offset → offset ≤ t.stop - 1 →
      (∀ s ∈ t.children, offset ≤ s.start ∨ s.stop ≤ offset) → (plan file).Untouched offset :=
    untouched_in_template hf hd ht hk hother
  refine ⟨hfree (Nat.le_refl _) hlined.ordered fun s hs => .inl (hlined.within s hs).1,
    hfree hlined.ordered (Nat.le_refl _) fun s hs => .inr (hlined.within s hs).2.2, fun s hs => ?_⟩
  obtain ⟨hstart, hle, hstop⟩ := hlined.within s hs
  have hside : ∀ r ∈ t.children, s = r ∨ s.stop ≤ r.start ∨ r.stop ≤ s.start :=
    fun r hr => (hf.nests t ht).eq_or_apart hs hr
  refine ⟨hfree hstart (Nat.le_trans hle hstop) fun r hr => ?_,
    hfree (Nat.le_trans hstart hle) hstop fun r hr => ?_⟩
  · rcases hside r hr with rfl | hside <;> omega
  · rcases hside r hr with rfl | hside <;> omega

theorem gap_apart {g : Span} (hg : g ∈ gaps (t.stop - 1) (t.start + 1) t.children) :
    ∀ m ∈ file.root.preorder, isPlain m → m.span.Apart g := by
  intro m hm hplain
  obtain ⟨-, hlined⟩ := lined_substitutions hf hd ht hk hother
  obtain ⟨hstart, hle, hstop, -, -, hout⟩ := mem_gaps hlined hg
  unfold Span.Apart Node.span
  dsimp only
  rcases literal_beside_template hf hd ht hk hother hm hplain with hapart | ⟨s, hs, hbegin, hend⟩
  · unfold Span.Apart Node.span at hapart
    dsimp only at hapart
    omega
  · have hside := hout s hs
    omega

/-- A part of a template reads as before. -/
theorem slice_gap (htext : file'.text = (plan file).apply file.text) {g : Span}
    (hg : g ∈ gaps (t.stop - 1) (t.start + 1) t.children) :
    file'.slice ⟨(plan file).front g.start, (plan file).front g.stop⟩ = file.slice g := by
  obtain ⟨-, hlined⟩ := lined_substitutions hf hd ht hk hother
  obtain ⟨hstart, hle, hstop, -, -, hout⟩ := mem_gaps hlined hg
  have hfree : (plan file).Untouched g.stop :=
    untouched_in_template hf hd ht hk hother (Nat.le_trans hstart hle) hstop fun s hs =>
      (hout s hs).imp_right fun h => Nat.le_trans h hle
  have hrange : IsRange file.text.toList g :=
    isRange_of_mem_gaps hlined hk (hf.aligned t ht)
      (fun s hs => hf.aligned s (Node.mem_preorder_child ht hs)) hg
  have himage : (⟨(plan file).front g.start, (plan file).front g.stop⟩ : Span) =
      (plan file).image g := by
    rw [(spread_plan hf).front_eq_back_of_untouched hfree]
    rfl
  rw [himage]
  exact slice_image hf htext hrange (gap_apart hf hd ht hk hother hg)

/-- The parts of a template with interpolations read as before. -/
theorem quasis_image {p : Places} (h : Marked p file file') :
    (t.annotate (gains file) p).quasis.map file'.slice = t.quasis.map file.slice := by
  obtain ⟨hsub, hlined⟩ := lined_substitutions hf hd ht hk hother
  obtain ⟨hfirst, hlast, hends⟩ := untouched_ends hf hd ht hk hother
  have hspread := spread_plan hf
  have hne : t.kind ≠ .jsxAttribute := by simp [hk]
  have hplace : ∀ s ∈ t.children, (s.annotate (gains file) p).start = (plan file).front s.start ∧
      (s.annotate (gains file) p).stop = (plan file).front s.stop := by
    intro s hs
    have hsubkind : s.kind ≠ .jsxAttribute := by simp [(hf.shaped t ht).template hk s hs]
    rw [start_annotate, stop_annotate, h.places s (Node.mem_preorder_child ht hs) hsubkind,
      hspread.front_eq_back_of_untouched (hends s hs).2]
    exact ⟨rfl, rfl⟩
  have hbegin : (t.annotate (gains file) p).start + 1 = (plan file).front (t.start + 1) := by
    rw [start_annotate, h.places t ht hne, hspread.front_succ hfirst]
    rfl
  have hend : (t.annotate (gains file) p).stop - 1 = (plan file).front (t.stop - 1) := by
    have hpos : t.stop = t.stop - 1 + 1 := by
      have hordered := hlined.ordered
      omega
    have hback := hspread.back_succ hlast
    rw [← hpos] at hback
    rw [stop_annotate, h.places t ht hne]
    exact congrArg (· - 1) hback
  have hmoved := gaps_move hlined hplace
    (fun s hs => hspread.front_mono hfirst (hends s hs).1 (hlined.within s hs).1)
    (hspread.front_mono hfirst hlast hlined.ordered)
    (hlined.apart.imp_of_mem fun hs hr hsr => hspread.front_mono (hends _ hs).2 (hends _ hr).1 hsr)
    (fun s hs => hspread.front_mono (hends s hs).2 hlast (hlined.within s hs).2.2)
  rw [quasis, quasis, substitutions_annotate hne, hsub, hbegin, hend, hmoved, List.map_map]
  exact List.map_congr_left fun g hg => slice_gap hf hd ht hk hother h.text hg

end
end

/-! ### All texts -/

/-- What a range reads when the known colors of literals have their tokens. -/
def renewed (file : SourceFile) (s : Span) : String :=
  if file.root.preorder.any fun m => isPlain m && m.content == s then
    String.ofList (tokenized (file.slice s).toList)
  else file.slice s

/-- In a subtree the literals read with tokens for their known colors, and all else as it stands. -/
structure Renews (file : SourceFile) (read : Span → String) (n : Node) : Prop where
  literal : ∀ m ∈ n.preorder, isPlain m →
    read m.content = String.ofList (tokenized (file.slice m.content).toList)
  other : ∀ s, (∀ m ∈ file.root.preorder, isPlain m → m.span.Apart s) → read s = file.slice s
  empty : ∀ s : Span, s.stop ≤ s.start → read s = ""

theorem slice_empty {s : Span} (h : s.stop ≤ s.start) : file.slice s = "" := by
  rw [SourceFile.slice, slice_of_le h]

theorem renews_renewed (hf : file.WellFormed) (hn : n ∈ file.root.preorder) :
    Renews file (renewed file) n := by
  have hempty : ∀ s : Span, s.stop ≤ s.start → renewed file s = "" := by
    intro s hs
    rw [renewed, slice_empty hs]
    split <;> rfl
  refine ⟨fun m hm hplain => ?_, fun s hs => ?_, hempty⟩
  · refine if_pos (List.any_eq_true.mpr ⟨m, Node.mem_preorder_trans hn hm, ?_⟩)
    simp [hplain]
  · by_cases hany : file.root.preorder.any fun m => isPlain m && m.content == s
    · obtain ⟨m, hm, hcontent⟩ := List.any_eq_true.mp hany
      simp only [Bool.and_eq_true, beq_iff_eq] at hcontent
      obtain ⟨hplain, rfl⟩ := hcontent
      have hapart := hs m hm hplain
      have hwithin := Node.content_within (hf.nests m hm)
      have hle : m.content.stop ≤ m.content.start := by
        unfold Span.Apart Node.span at hapart
        unfold Span.Within Node.span at hwithin
        dsimp only at hapart hwithin
        omega
      rw [hempty _ hle, slice_empty hle]
    · exact if_neg hany

/-- No literal in a subtree has a known color. -/
def Untabled (file : SourceFile) (n : Node) : Prop :=
  ∀ m ∈ n.preorder, isPlain m → (pieces (file.slice m.content).toList).any Piece.isKnown = false

instance (file : SourceFile) (n : Node) : Decidable (Untabled file n) :=
  inferInstanceAs (Decidable (∀ m ∈ n.preorder, isPlain m →
    (pieces (file.slice m.content).toList).any Piece.isKnown = false))

theorem renews_slice (h : Untabled file n) : Renews file file.slice n where
  literal m hm hplain := by
    have hnone := h m hm hplain
    rw [tokenized_eq_self (by simpa using hnone), String.ofList_toList]
  other _ _ := rfl
  empty _ := slice_empty

/-- A template without interpolations has one part, which is what it holds. -/
theorem quasis_of_plain (hk : n.substitutions = []) : ∃ s, n.quasis = [s] ∧
    (s = n.content ∨ s.stop ≤ s.start ∧ n.content.stop ≤ n.content.start) := by
  refine ⟨⟨n.start + 1, max (n.stop - 1) (n.start + 1)⟩, by rw [quasis, hk, gaps], ?_⟩
  unfold content
  split
  · exact .inr ⟨by dsimp only; omega, Nat.le_refl _⟩
  · exact .inl (by rw [Nat.max_eq_left (by omega)])

section
variable (hf : file.WellFormed) (hd : file.Delimited) {p : Places} (h : Marked p file file')
include hf h

/-- A name reads as before. -/
theorem slice_name (hn : n ∈ file.root.preorder) (hk : n.kind ≠ .jsxAttribute)
    (hnone : ∀ m ∈ n.preorder, isPlain m = false) :
    file'.slice (p.node n) = file.slice n.span := by
  rw [h.places n hn hk]
  exact slice_image hf h.text ((hf.aligned n hn).isRange (hf.nests n hn))
    (apart_of_no_literal hf hn hnone)

/-- A literal reads with tokens for its known colors. -/
theorem slice_literal (hn : n ∈ file.root.preorder) (hplain : isPlain n) :
    file'.slice (n.annotate (gains file) p).content =
      String.ofList (tokenized (file.slice n.content).toList) := by
  obtain ⟨v, hv, rfl⟩ := Node.exists_visit hn
  obtain ⟨before, behind, hamong, -⟩ := among_of_mem hf hv hplain
  have hne : v.node.kind ≠ .jsxAttribute := by
    rcases kind_of_isPlain hplain with hk | hk <;> simp [hk]
  have hspan : (v.node.annotate (gains file) p).span = (plan file).image v.node.span := by
    rw [span_annotate, h.places v.node hn hne]
  rw [← hamong.slice_content_image h.text hspan, String.ofList_toList]

include hd

/-- Where literals are read with their tokens, the new text reads as the old one does. -/
theorem alike_marked {read : Span → String} (config : Config) (hn : n ∈ file.root.preorder)
    (hr : Renews file read n) : ∀ m ∈ n.preorder,
      Alike (fun a b => a.map file'.slice = b.map read) (ArbitraryValueRule.isHelper file' config)
        (ArbitraryValueRule.isHelper file config) m (m.annotate (gains file) p)
        (m.annotate (gains file) .still) := by
  intro m hm
  have hroot := Node.mem_preorder_trans hn hm
  have hleaf : m.kind ∈ leafKinds → m.kind ≠ .string → ∀ l ∈ m.preorder, isPlain l = false :=
    no_literal_of_leaf hf hroot
  refine ⟨fun hk => ?_, fun hk => ?_, fun hk => ?_, fun hk => ?_⟩
  · have hnone := hleaf (by rw [hk]; decide) (by simp [hk])
    have hname := slice_name hf h hroot (by simp [hk]) hnone
    rw [span_annotate, span_annotate, ArbitraryValueRule.isHelper, hname]
    rfl
  · have hplain : isPlain m := by simp [isPlain, hk]
    rw [List.map_singleton, List.map_singleton, slice_literal hf h hroot hplain, content_still,
      hr.literal m hm hplain]
  · rw [quasis_still hk]
    cases hplain : isPlain m with
    | true =>
      have hnone : m.substitutions = [] := by simpa [isPlain, hk] using hplain
      have hne : m.kind ≠ .jsxAttribute := by simp [hk]
      obtain ⟨s, hs, hold⟩ := quasis_of_plain hnone
      obtain ⟨s', hs', hnew⟩ := quasis_of_plain (n := m.annotate (gains file) p) (by
        rw [substitutions_annotate hne, hnone, List.map_nil])
      have hread : read s = read m.content := by
        rcases hold with rfl | ⟨hs, hcontent⟩
        · rfl
        · rw [hr.empty s hs, hr.empty _ hcontent]
      have hslice : file'.slice s' = file'.slice (m.annotate (gains file) p).content := by
        rcases hnew with rfl | ⟨hs, hcontent⟩
        · rfl
        · rw [slice_empty hs, slice_empty hcontent]
      rw [hs, hs', List.map_singleton, List.map_singleton, hread, hslice,
        slice_literal hf h hroot hplain, hr.literal m hm hplain]
    | false =>
      rw [quasis_image hf hd hroot hk hplain h]
      refine List.map_congr_left fun g hg => (hr.other g ?_).symm
      rw [quasis, (lined_substitutions hf hd hroot hk hplain).1] at hg
      exact gap_apart hf hd hroot hk hplain hg
  · have hnone := hleaf (by rw [hk]; decide) (by simp [hk])
    rw [List.map_singleton, List.map_singleton, span_annotate, span_annotate,
      slice_name hf h hroot (by simp [hk]) hnone]
    exact congrArg (fun s => [s]) (hr.other m.span (apart_of_no_literal hf hroot hnone)).symm

end

end Codemod.HexColor
end TokenLint
