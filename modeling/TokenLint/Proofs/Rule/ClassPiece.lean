import TokenLint.Proofs.Rule.Extraction
import TokenLint.Proofs.Source.Marks
import TokenLint.Proofs.Source.Nesting

/-!
# Class strings are pieces of their expression

The class strings of an expression are texts of ranges in it, and each range begins behind the one
before. What one expression passes on comes from expressions that stand one behind the other, so it
is enough to see that each range begins before the end of the expression that it is in.
-/
namespace TokenLint.Source.Node

/-- Ranges within a whole that begin before its end, one behind the other. -/
structure Pieces (spans : List Span) (whole : Span) : Prop where
  within : ∀ s ∈ spans, s.Within whole ∧ s.start ≤ s.stop ∧ s.start < whole.stop
  ordered : spans.Pairwise fun a b => a.stop ≤ b.start ∧ a.start < b.start

theorem pieces_nil (whole : Span) : Pieces [] whole := ⟨by simp, .nil⟩

theorem pieces_singleton {s whole : Span} (hwithin : s.Within whole) (hle : s.start ≤ s.stop)
    (hlt : s.start < whole.stop) : Pieces [s] whole :=
  ⟨by simpa using ⟨hwithin, hle, hlt⟩, List.pairwise_singleton _ s⟩

theorem Pieces.mono {spans : List Span} {part whole : Span} (h : Pieces spans part)
    (hwithin : part.Within whole) : Pieces spans whole := by
  refine ⟨fun s hs => ?_, h.ordered⟩
  obtain ⟨hin, hle, hlt⟩ := h.within s hs
  exact ⟨hin.trans hwithin, hle, Nat.lt_of_lt_of_le hlt hwithin.2⟩

/-- Pieces of nodes that stand one behind the other are pieces of what is around the nodes. -/
theorem pieces_flatMap {ns : List Node} {spans : Node → List Span} {whole : Span}
    (hns : ns.Pairwise fun a b => a.stop ≤ b.start) (hwithin : ∀ n ∈ ns, n.span.Within whole)
    (h : ∀ n ∈ ns, Pieces (spans n) n.span) : Pieces (ns.flatMap spans) whole := by
  refine ⟨fun s hs => ?_, List.pairwise_flatMap.mpr ⟨fun n hn => (h n hn).ordered, ?_⟩⟩
  · obtain ⟨n, hn, hs⟩ := List.mem_flatMap.mp hs
    exact ((h n hn).mono (hwithin n hn)).within s hs
  · refine hns.imp_of_mem fun {a b} ha hb hab s hs t ht => ?_
    obtain ⟨hsin, -, hslt⟩ := (h a ha).within s hs
    obtain ⟨htin, -, -⟩ := (h b hb).within t ht
    unfold Span.Within span at hsin htin
    dsimp only [span] at hslt hsin htin
    omega

/-- In the whole subtree children lie in order in their parent, and marks around their literals. -/
def Tidy (n : Node) : Prop := ∀ m ∈ n.preorder, m.Nests ∧ m.Closed

variable {isHelper : Span → Bool} {n c : Node}

theorem Tidy.nests (h : n.Tidy) : ∀ m ∈ n.preorder, m.Nests := fun m hm => (h m hm).1

theorem Tidy.closed (h : n.Tidy) : n.Closed := (h n (mem_preorder_self n)).2

theorem Tidy.root (h : n.Tidy) : n.Nests := (h n (mem_preorder_self n)).1

theorem Tidy.inside (h : n.Tidy) (hc : c ∈ n.inside) : c.Tidy := fun m hm =>
  h m (mem_preorder_trans (mem_preorder.mpr (.inr hc)) hm)

theorem Tidy.child (h : n.Tidy) (hc : c ∈ n.children) : c.Tidy := fun m hm =>
  h m (mem_preorder_trans (mem_preorder_of_mem_children hc) hm)

/-! ### What an expression has itself -/

theorem pieces_content (h : n.Tidy) (hk : n.kind = .string) : Pieces [n.content] n.span := by
  have hmarks := h.closed.string hk
  rw [h.closed.content hk]
  refine pieces_singleton ⟨?_, ?_⟩ ?_ ?_ <;> dsimp only [span] <;> omega

theorem pieces_quasis (h : n.Tidy) (hk : n.kind = .template) : Pieces n.quasis n.span := by
  obtain ⟨hmarks, hin⟩ := h.closed.template hk
  have hlined := h.closed.lined h.root hk
  have hbounds : ∀ s ∈ n.quasis, n.start + 1 ≤ s.start ∧ s.start ≤ s.stop ∧ s.stop ≤ n.stop - 1 :=
    fun s hs => by
      obtain ⟨hstart, hle, hstop, -⟩ := mem_gaps hlined hs
      exact ⟨hstart, hle, hstop⟩
  have hgaps := pairwise_gaps hlined fun s hs => (hin s hs).2.1
  refine ⟨fun s hs => ?_, hgaps.imp_of_mem fun {a b} ha _ hab => ?_⟩
  · have hs := hbounds s hs
    unfold Span.Within span
    dsimp only
    omega
  · have ha := hbounds a ha
    omega

/-- What is read of a key is what a string holds, or a name. -/
theorem exists_key_of_trueKey? {s : Span} (h : n.trueKey? = some s) : ∃ key ∈ n.children,
    key.kind = .string ∧ s = key.content ∨ key.kind = .propertyName ∧ s = key.span := by
  unfold trueKey? at h
  split at h
  · cases h
  · obtain ⟨key, hkey, h⟩ := Option.bind_eq_some_iff.mp h
    obtain ⟨value, -, h⟩ := Option.bind_eq_some_iff.mp h
    refine ⟨key, (mem_children_of_child? hkey).1, ?_⟩
    split at h
    · cases h
    · split at h
      · rename_i hstring
        exact .inl ⟨beq_iff_eq.mp hstring, (Option.some.inj h).symm⟩
      · split at h
        · rename_i hname
          exact .inr ⟨beq_iff_eq.mp hname, (Option.some.inj h).symm⟩
        · cases h

/-- A key with the value `true` is a piece of its pair. -/
theorem pieces_trueKey? (h : n.Tidy) : Pieces n.trueKey?.toList n.span := by
  cases hkey : n.trueKey? with
  | none => exact pieces_nil _
  | some s =>
    obtain ⟨key, hmem, hkey⟩ := exists_key_of_trueKey? hkey
    have hbelow := h.child hmem
    refine Pieces.mono ?_ (h.root.child_within hmem)
    rcases hkey with ⟨hstring, rfl⟩ | ⟨hname, rfl⟩
    · exact pieces_content hbelow hstring
    · have hsome := hbelow.closed.name hname
      exact pieces_singleton (Span.Within.refl _) (Nat.le_of_lt hsome) hsome

theorem pieces_ownSpans (h : n.Tidy) : Pieces n.ownSpans n.span := by
  unfold ownSpans
  split
  · rename_i hshape
    exact pieces_content h (bareShape_eq_string hshape)
  · rename_i hshape
    exact pieces_quasis h (bareShape_eq_template hshape)
  · rw [List.filterMap_eq_flatMap_toList]
    exact pieces_flatMap h.root.apart (fun c hc => h.root.child_within hc) fun c hc =>
      pieces_trueKey? (h.child hc)
  · exact pieces_nil _

/-! ### What it passes on -/

/-- The expressions that are passed on stand one behind the other. -/
theorem passed_apart (h : n.Tidy) : (n.passed isHelper).Pairwise fun a b => a.stop ≤ b.start := by
  have hkept : ∀ keep : Node → Bool,
      (n.children.filter keep).Pairwise fun a b => a.stop ≤ b.start :=
    fun keep => h.root.apart.filter keep
  unfold passed
  split
  · cases n.children.head? <;> simp
  · split
    · exact h.root.apart
    · split
      · have hargs : ∀ args ∈ n.children.filter (·.role == .arguments), args.Nests :=
          fun args hargs => (h.child (List.mem_filter.mp hargs).1).root
        refine List.pairwise_flatMap.mpr ⟨fun args ha => (hargs args ha).apart, ?_⟩
        refine (hkept _).imp_of_mem fun ha hb hab c hc d hd => ?_
        have hc := (hargs _ ha).child_within hc
        have hd := (hargs _ hb).child_within hd
        exact Nat.le_trans hc.2 (Nat.le_trans hab hd.1)
      · exact .nil
    · exact hkept _
    · exact hkept _
    · exact hkept _
    · exact .nil

/-- What an expression has itself and what it passes on are not both something. -/
theorem ownSpans_eq_nil_or (n : Node) : n.ownSpans = [] ∨ n.passed isHelper = [] := by
  unfold ownSpans passed
  by_cases hk : n.kind = .parenthesized
  · exact .inl (by rw [bareShape_parenthesized hk])
  · rw [if_neg (by simpa using hk)]
    cases n.bareShape with
    | string | template | object | other => exact .inr rfl
    | array | call | ternary | concat | logical => exact .inl rfl

theorem pieces_classSpans (isHelper : Span → Bool) (h : n.Tidy) :
    Pieces (n.classSpans isHelper) n.span := by
  induction n using inside_induction with
  | step n ih =>
    rw [classSpans_step]
    rcases ownSpans_eq_nil_or n with hown | hpassed
    · rw [hown, List.nil_append]
      exact pieces_flatMap (passed_apart h)
        (fun c hc => within_of_mem_inside h.nests (mem_inside_of_passed hc)) fun c hc =>
          ih c (mem_inside_of_passed hc) (h.inside (mem_inside_of_passed hc))
    · rw [hpassed, List.flatMap_nil, List.append_nil]
      exact pieces_ownSpans h

/-! ### Ranges of the text -/

/-- What is read below an expression some expression there has itself. -/
theorem exists_own_of_mem_classSpans {s : Span} (h : s ∈ n.classSpans isHelper) :
    ∃ m ∈ n.preorder, s ∈ m.ownSpans := by
  induction n using inside_induction with
  | step n ih =>
    rw [classSpans_step, List.mem_append] at h
    rcases h with hown | hpassed
    · exact ⟨n, mem_preorder_self n, hown⟩
    · obtain ⟨c, hc, hs⟩ := List.mem_flatMap.mp hpassed
      have hinside := mem_inside_of_passed hc
      obtain ⟨m, hm, hs⟩ := ih c hinside hs
      exact ⟨m, mem_preorder_trans (mem_preorder.mpr (.inr hinside)) hm, hs⟩

theorem isRange_of_mem_ownSpans {cs : List Char} (h : n.Tidy)
    (ha : ∀ m ∈ n.preorder, m.Aligned cs) {s : Span} (hs : s ∈ n.ownSpans) : Text.IsRange cs s := by
  have hchild : ∀ c ∈ n.children, c.Aligned cs := fun c hc => ha c (mem_preorder_of_mem_children hc)
  have hself := ha n (mem_preorder_self n)
  unfold ownSpans at hs
  split at hs
  · rename_i hshape
    obtain rfl := List.mem_singleton.mp hs
    exact hself.content_isRange (.inl (bareShape_eq_string hshape))
  · rename_i hshape
    have hk := bareShape_eq_template hshape
    exact isRange_of_mem_gaps (h.closed.lined h.root hk) hk hself
      (fun c hc => hchild c (List.mem_filter.mp hc).1) hs
  · obtain ⟨pair, hpair, hs⟩ := List.mem_filterMap.mp hs
    have hbelow := h.child hpair
    obtain ⟨key, hkey, hs⟩ := exists_key_of_trueKey? hs
    have halign := ha key (mem_preorder_child (mem_preorder_of_mem_children hpair) hkey)
    rcases hs with ⟨hstring, rfl⟩ | ⟨-, rfl⟩
    · exact halign.content_isRange (.inl hstring)
    · exact halign.isRange (hbelow.child hkey).root
  · cases hs

end TokenLint.Source.Node

namespace TokenLint.SourceFile

open Source

variable {file : SourceFile} {n : Node}

/-- The class strings of an expression are the texts of ranges of the file that lie in the
expression, do not overlap, and begin one behind the other. -/
theorem classStrings_pieces (hf : file.WellFormed) (hn : n ∈ file.root.preorder)
    (hclosed : ∀ m ∈ n.preorder, m.Closed) (helpers : List String) :
    ∃ spans : List Span, file.classStrings helpers n = spans.map file.slice ∧
      (∀ s ∈ spans, Text.IsRange file.text.toList s ∧ s.Within n.span) ∧
      spans.Pairwise fun a b => a.stop ≤ b.start ∧ a.start < b.start := by
  have htidy : n.Tidy := fun m hm => ⟨hf.nests m (Node.mem_preorder_trans hn hm), hclosed m hm⟩
  have hpieces := Node.pieces_classSpans (fun s => helpers.contains (file.slice s)) htidy
  refine ⟨_, rfl, fun s hs => ⟨?_, (hpieces.within s hs).1⟩, hpieces.ordered⟩
  obtain ⟨m, hm, hown⟩ := Node.exists_own_of_mem_classSpans hs
  refine Node.isRange_of_mem_ownSpans (fun l hl => htidy l (Node.mem_preorder_trans hm hl)) ?_ hown
  exact fun l hl => hf.aligned l (Node.mem_preorder_trans hn (Node.mem_preorder_trans hm hl))

/-- Class strings of every form, some of them empty. -/
def layered : SourceFile :=
  .parse "cn(a&&`p-$\x7bx\x7d$\x7by\x7d`,['',\"m-1\"],\x7b'u':true,v:true\x7d)+(b?'q':(c??'r'))"

/-- The sum. -/
def layeredSum : Node := (layered.root.preorder.find? (·.kind == .binary .plus)).getD layered.root

theorem layered_pieces :
    layered.WellFormed ∧ layeredSum ∈ layered.root.preorder ∧
    (∀ m ∈ layeredSum.preorder, m.Closed) ∧
    layered.classStrings ["cn"] layeredSum = ["p-", "", "", "", "m-1", "u", "v", "q", "r"] ∧
    ∃ spans : List Span, layered.classStrings ["cn"] layeredSum = spans.map layered.slice ∧
      (∀ s ∈ spans, Text.IsRange layered.text.toList s ∧ s.Within layeredSum.span) ∧
      spans.Pairwise fun a b => a.stop ≤ b.start ∧ a.start < b.start := by
  obtain ⟨hf, hn, hclosed, hstrings⟩ : layered.WellFormed ∧ layeredSum ∈ layered.root.preorder ∧
      (∀ m ∈ layeredSum.preorder, m.Closed) ∧ layered.classStrings ["cn"] layeredSum =
        ["p-", "", "", "", "m-1", "u", "v", "q", "r"] := by
    decide +kernel
  exact ⟨hf, hn, hclosed, hstrings, classStrings_pieces hf hn hclosed ["cn"]⟩

end TokenLint.SourceFile
