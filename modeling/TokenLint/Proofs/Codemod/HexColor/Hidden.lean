import Mathlib.Algebra.Order.BigOperators.Group.List
import Mathlib.Algebra.Order.Group.Nat
import TokenLint.Proofs.Codemod.HexColor.Marked
import TokenLint.Proofs.Rule.RawColor

/-!
# What a comment hides

The comment that flags a color in a class attribute is the first child of the braces around it, and
the rule for arbitrary values looks at the first child only. So what was reported of such a value
is reported no more, and a file has the same violations before and after if and only if nothing was
reported of the class strings that are behind a comment now.
-/
namespace TokenLint.Codemod.HexColor

open Source Source.Node Text EditPlan ArbitraryValueRule

/-- Lists that are no longer than others, part by part, but as long in all are the same parts. -/
theorem eq_of_flatMap_eq {α β : Type} {xs : List α} {f g : α → List β}
    (hle : ∀ x ∈ xs, (f x).length ≤ (g x).length) (h : xs.flatMap f = xs.flatMap g) :
    ∀ x ∈ xs, f x = g x := by
  induction xs with
  | nil => exact fun _ hx => absurd hx List.not_mem_nil
  | cons x xs ih =>
    obtain ⟨hx, hxs⟩ := List.forall_mem_cons.mp hle
    have hrest : (xs.flatMap f).length ≤ (xs.flatMap g).length := by
      rw [List.length_flatMap, List.length_flatMap]
      exact List.sum_le_sum hxs
    rw [List.flatMap_cons, List.flatMap_cons] at h
    have hlength := congrArg List.length h
    rw [List.length_append, List.length_append] at hlength
    obtain ⟨hfirst, hothers⟩ := List.append_inj h (by omega)
    exact List.forall_mem_cons.mpr ⟨hfirst, ih hxs hothers⟩

/-- The class attributes of a file. -/
def classAttributes (file : SourceFile) : List Node :=
  file.root.preorder.filter (isClassAttribute file)

/-- What is reported of an attribute when the comments are put in and nothing else is changed. -/
def uncovered (context : FileContext) (file : SourceFile) (config : Config)
    (read : Span → String) (n : Node) : List Violation :=
  attributeFindings context file config read (n.annotate (gains file) .still)

variable {context : FileContext} {config : Config} {file file' : SourceFile} {p : Places} {n : Node}

theorem kind_of_isClassAttribute (h : isClassAttribute file n) : n.kind = .jsxAttribute := by
  unfold isClassAttribute at h
  simpa using (Bool.and_eq_true_iff.mp h).1

/-- A comment leaves no more to report than there was. -/
theorem length_uncovered_le (hk : n.kind = .jsxAttribute) (read : Span → String) :
    (uncovered context file config read n).length ≤
      (attributeFindings context file config read n).length := by
  rw [uncovered, attributeFindings, attributeFindings, attributeValue?_annotate hk]
  cases n.attributeValue? with
  | none => exact Nat.le_refl _
  | some value => exact length_findings_le (valueSpans_sublist value)

/-- Whether a comment comes first in the braces of an attribute's value: before a literal that gets
braces with it, or before the expression in a container. -/
def Covered (file : SourceFile) (v : Node) : Prop :=
  v.leads (gains file) ∨ v.kind = .jsxExpression ∧
    ∃ e ∈ v.children.head?, e.leads (gains file) ∧ v.start < e.start

instance (file : SourceFile) (v : Node) : Decidable (Covered file v) :=
  inferInstanceAs (Decidable (v.leads (gains file) ∨ v.kind = .jsxExpression ∧
    ∃ e ∈ v.children.head?, e.leads (gains file) ∧ v.start < e.start))

/-- With a comment put before its expression a container begins with the comment. -/
theorem head?_covered {marked : Node → Bool} {v e : Node} (hk : v.kind = .jsxExpression)
    (he : e ∈ v.children.head?) (hlead : e.leads marked) (hbegun : v.start < e.start) :
    (v.annotate marked p).children.head?.map kind = some .comment := by
  have hne : v.kind ≠ .jsxAttribute := by simp [hk]
  have hnote : (e.leads marked && decide (v.start < e.start)) = true := by simp [hlead, hbegun]
  rw [head?_children_annotate hne, Option.mem_def.mp he, Option.map_some, if_pos hnote]
  rfl

/-- Behind a comment everything is hidden. -/
theorem uncovered_of_covered {v : Node} {read : Span → String} (hk : n.kind = .jsxAttribute)
    (hv : v ∈ n.attributeValue?) (h : Covered file v) :
    uncovered context file config read n = [] := by
  have hnone : valueSpans (isHelper file config) (valued (gains file) .still v) = [] := by
    unfold valued
    split
    · exact valueSpans_of_comment rfl rfl
    · rename_i hlead
      obtain ⟨hcontainer, e, he, hleads, hbegun⟩ := h.resolve_left hlead
      exact valueSpans_of_comment ((kind_annotate v).trans hcontainer)
        (head?_covered hcontainer he hleads hbegun)
  rw [uncovered, attributeFindings, attributeValue?_annotate hk, Option.mem_def.mp hv]
  simp only [Option.map_some, Option.getD_some]
  rw [hnone]
  rfl

/-- Of all nodes of a tree with comments put in those are found that were found before. -/
theorem filter_preorder_noted {marked : Node → Bool} {q : Node → Bool}
    (hq : ∀ m : Node, m.kind = .comment ∨ m.kind = .jsxExpression → q m = false) (kind : Kind)
    (begun : Bool) (c c' : Node) :
    ((noted marked p kind begun c c').flatMap preorder).filter q = c'.preorder.filter q := by
  have hnote : (note p c).preorder.filter q = [] := by
    rw [preorder_eq, List.filter_cons, hq _ (.inl rfl), if_neg Bool.false_ne_true]
    rfl
  have hbraced : (braced p c c').preorder.filter q = c'.preorder.filter q := by
    rw [preorder_eq, List.filter_cons, hq _ (.inr rfl), if_neg Bool.false_ne_true]
    have hchildren : (braced p c c').children = [note p c, c'] := rfl
    rw [hchildren, List.flatMap_cons, List.flatMap_singleton, List.filter_append, hnote,
      List.nil_append]
  unfold noted
  split
  · rw [List.flatMap_singleton]
  · split
    · rw [List.flatMap_singleton, hbraced]
    · split
      · rw [List.flatMap_cons, List.flatMap_singleton, List.filter_append, hnote, List.nil_append]
      · rw [List.flatMap_singleton]

theorem filter_preorder_annotate {marked q q' : Node → Bool}
    (hq : ∀ m : Node, m.kind = .comment ∨ m.kind = .jsxExpression → q' m = false)
    (hsame : ∀ m ∈ n.preorder, q' (m.annotate marked p) = q m) :
    (n.annotate marked p).preorder.filter q' = (n.preorder.filter q).map (annotate marked p) := by
  induction n using child_induction with
  | step n ih =>
    have hchild : ∀ c ∈ n.children, (c.annotate marked p).preorder.filter q' =
        (c.preorder.filter q).map (annotate marked p) := fun c hc =>
      ih c hc fun m hm => hsame m (mem_preorder_trans (mem_preorder_of_mem_children hc) hm)
    have hbelow : ((n.annotate marked p).children.flatMap preorder).filter q' =
        ((n.children.flatMap preorder).filter q).map (annotate marked p) := by
      rw [children_annotate, List.flatMap_assoc, List.filter_flatMap, List.filter_flatMap,
        List.map_flatMap]
      exact List.flatMap_congr fun c hc => (filter_preorder_noted hq _ _ c _).trans (hchild c hc)
    rw [preorder_eq, preorder_eq n, List.filter_cons, List.filter_cons, hbelow,
      hsame n (mem_preorder_self n)]
    split <;> rfl

section
variable (hf : file.WellFormed) (hd : file.Delimited) (h : Marked p file file')
include hf hd h

/-- A class attribute is one still. -/
theorem isClassAttribute_annotate (hn : n ∈ file.root.preorder) :
    isClassAttribute file' (n.annotate (gains file) p) = isClassAttribute file n := by
  unfold isClassAttribute
  rw [kind_annotate]
  by_cases hk : n.kind = .jsxAttribute
  · rw [children_annotate_attribute hk, List.head?_map]
    cases hhead : n.children.head? with
    | none => rfl
    | some label =>
      obtain ⟨hkind, hnone⟩ := hd.label n hn hk label hhead
      have hlabel := Node.mem_preorder_child hn (List.mem_of_head? hhead)
      have hlead : label.leads (gains file) = false := by
        refine List.any_eq_false.mpr fun m hm => ?_
        simp [gains, hnone m hm]
      have hname := slice_name hf h hlabel hkind hnone
      rw [Option.map_some, hlead, if_neg Bool.false_ne_true, Option.any_some, Option.any_some,
        SourceFile.nodeText, SourceFile.nodeText, span_annotate, hname]
  · have hne : (n.kind == .jsxAttribute) = false := by simpa using hk
    rw [hne, Bool.false_and, Bool.false_and]

/-- The class attributes are those that were there. -/
theorem classAttributes_marked :
    classAttributes file' = (classAttributes file).map (annotate (gains file) p) := by
  have hother : ∀ (file : SourceFile) (m : Node), m.kind ≠ .jsxAttribute →
      isClassAttribute file m = false := fun file m hk => by
    have hne : (m.kind == .jsxAttribute) = false := by simpa using hk
    rw [isClassAttribute, hne, Bool.false_and]
  have hinside : ∀ file : SourceFile, file.root.kind = .program → classAttributes file =
      (file.root.children.flatMap preorder).filter (isClassAttribute file) := by
    intro file hroot
    rw [classAttributes, preorder_eq, List.filter_cons, hother _ _ (by simp [hroot]),
      if_neg Bool.false_ne_true]
  have hq : ∀ m : Node, m.kind = .comment ∨ m.kind = .jsxExpression →
      isClassAttribute file' m = false := fun m hm =>
    hother file' m (by rcases hm with hk | hk <;> simp [hk])
  rw [hinside file' h.program, hinside file hf.program, h.children, List.flatMap_assoc,
    List.filter_flatMap, List.filter_flatMap, List.map_flatMap]
  refine List.flatMap_congr fun c hc => (filter_preorder_noted hq _ _ c _).trans ?_
  exact filter_preorder_annotate hq fun m hm => isClassAttribute_annotate hf hd h
    (Node.mem_preorder_trans (mem_preorder_of_mem_children hc) hm)

/-- Of an attribute with its edits that is reported which is not behind a comment. -/
theorem attributeFindings_marked {read : Span → String} (hn : n ∈ file.root.preorder)
    (hk : n.kind = .jsxAttribute) (hr : ∀ v ∈ n.attributeValue?, Renews file read v) :
    attributeFindings context file' config file'.slice (n.annotate (gains file) p) =
      uncovered context file config read n := by
  rw [uncovered, attributeFindings, attributeFindings, attributeValue?_annotate hk,
    attributeValue?_annotate hk]
  cases hvalue : n.attributeValue? with
  | none => rfl
  | some v =>
    have hv := Node.mem_preorder_child hn (RawColorRule.attributeValue?_mem hvalue)
    have halike := alike_marked hf hd h config hv (hr v hvalue)
    have hspans := valueSpans_valued (joins_map read file'.slice) (fun _ => id)
      (fun c hlead hlead' => by simp [hlead] at hlead') halike
    simp only [Option.map_some, Option.getD_some, namesIn]
    rw [hspans]

/-- The report of a marked file, by a way to read its class attributes. -/
theorem report_marked (context : FileContext) (config : Config) {read : Span → String}
    (hr : ∀ n ∈ classAttributes file, ∀ v ∈ n.attributeValue?, Renews file read v) :
    report context file' config = if config.isFileExempt context.relativePath then []
      else (classAttributes file).flatMap (uncovered context file config read) := by
  have hattributes : file'.root.preorder.filter (isClassAttribute file') =
      (classAttributes file).map (annotate (gains file) p) := classAttributes_marked hf hd h
  rw [report_eq, hattributes, List.flatMap_map]
  congr 1
  refine List.flatMap_congr fun n hn => ?_
  obtain ⟨hmem, hclass⟩ := List.mem_filter.mp hn
  exact attributeFindings_marked hf hd h hmem (kind_of_isClassAttribute hclass) (hr n hn)

end

/-- What the report of a file is after the marks. -/
structure MarkedReport (p : Places) (context : FileContext) (config : Config)
    (file file' : SourceFile) : Prop where
  /-- Of a class attribute it says what it said of the class strings that have no comment in front
  of them, with tokens for known colors. -/
  report_eq : file.WellFormed → file.Delimited → Marked p file file' →
    report context file' config = if config.isFileExempt context.relativePath then []
      else (classAttributes file).flatMap (uncovered context file config (renewed file))
  /-- Of a value that a comment comes first in it says nothing. -/
  covered : ∀ n ∈ classAttributes file, ∀ v ∈ n.attributeValue?, Covered file v →
    uncovered context file config (renewed file) n = []
  /-- Without a known color it is as before if and only if the comments leave each attribute what
  was reported of it. -/
  unchanged_iff : file.WellFormed → file.Delimited → Marked p file file' →
    (∀ n ∈ classAttributes file, ∀ v ∈ n.attributeValue?, Untabled file v) →
      (report context file' config = report context file config ↔
        config.isFileExempt context.relativePath ∨ ∀ n ∈ classAttributes file,
          uncovered context file config file.slice n =
            attributeFindings context file config file.slice n)
  /-- Of a container with a comment put before its expression nothing is reported, so the comment
  changes what is reported unless that was nothing. -/
  container : ∀ (marked : Node → Bool) (v e : Node), v.kind = .jsxExpression →
    e ∈ v.children.head? → e.leads marked → v.start < e.start →
      ((valueViolations context file' config (v.annotate marked p)).map Violation.unplaced =
          (valueViolations context file config v).map Violation.unplaced ↔
        valueViolations context file config v = [])

/-- With the marks of a plan, or with a comment put into a container, a report says nothing of what
is behind a comment, and the rest as before. -/
theorem report_marked_exact (p : Places) (context : FileContext) (config : Config)
    (file file' : SourceFile) : MarkedReport p context config file file' := by
  constructor
  case report_eq =>
    intro hf hd h
    refine report_marked hf hd h context config fun n hn v hv => renews_renewed hf ?_
    exact Node.mem_preorder_child (List.mem_filter.mp hn).1 (RawColorRule.attributeValue?_mem hv)
  case covered =>
    intro n hn v hv hcovered
    exact uncovered_of_covered (kind_of_isClassAttribute (List.mem_filter.mp hn).2) hv hcovered
  case unchanged_iff =>
    intro hf hd h hnone
    have hafter := report_marked hf hd h context config fun n hn v hv =>
      renews_slice (hnone n hn v hv)
    rw [hafter, report_eq]
    cases config.isFileExempt context.relativePath with
    | true => simp
    | false =>
      simp only [Bool.false_eq_true, if_false, false_or]
      refine ⟨eq_of_flatMap_eq fun n hn => ?_, fun h => List.flatMap_congr h⟩
      exact length_uncovered_le (kind_of_isClassAttribute (List.mem_filter.mp hn).2) _
  case container =>
    intro marked v e hk he hlead hbegun
    have hkind : (v.annotate marked p).kind = .jsxExpression := (kind_annotate v).trans hk
    rw [unplaced_valueViolations, valueSpans_of_comment hkind (head?_covered hk he hlead hbegun)]
    change [] = _ ↔ _
    rw [eq_comm, List.map_eq_nil_iff]

/-- A class attribute with a color that has no token. -/
def shade : SourceFile := .parse "a=<p class='bg-[#123456]'/>"

/-- The file that the plan makes of it. -/
def shadeMarked : SourceFile := .parse ("a=<p class=\x7b/* TODO(ds-migration): replace #123456 " ++
  "with semantic design tokens */ 'bg-[#123456]'\x7d/>")

/-- Where the nodes of the first file stand in the second one. -/
def shadePlaces : Places where
  node n := if n.kind = .jsxAttribute then
      ⟨(plan shade).front n.start, (plan shade).front n.stop⟩
    else (plan shade).image n.span
  comment n := ⟨(plan shade).back n.start + 1, (plan shade).front n.start - 1⟩
  braces n := ⟨(plan shade).back n.start, (plan shade).front n.stop⟩

theorem shadeMarked_text : shadeMarked.text = (plan shade).apply shade.text := by
  have hplan : plan shade = [.insert 11 ("\x7b/* TODO(ds-migration): replace #123456 " ++
      "with semantic design tokens */ "), .insert 25 "\x7d"] := by decide +kernel
  rw [hplan, EditPlan.apply_eq_insertionSort (by decide)]
  decide +kernel

theorem marked_shade : Marked shadePlaces shade shadeMarked where
  text := shadeMarked_text
  program := by decide +kernel
  children := by decide +kernel
  places n _ hk := if_neg hk

theorem shade_wellFormed : shade.WellFormed := by decide +kernel

/-- The comment comes first in the one class attribute there is, and no color in it is known. -/
theorem shade_covered : ∀ n ∈ classAttributes shade, ∀ v ∈ n.attributeValue?,
    Covered shade v ∧ Untabled shade v := by decide +kernel

/-- A class in braces. -/
def tint : SourceFile := .parse "a=<p class=\x7b'bg-[#123456]'\x7d/>"

theorem shade_report_marked :
    (shade.WellFormed ∧ shade.Delimited ∧ Marked shadePlaces shade shadeMarked ∧
      (∀ n ∈ classAttributes shade, ∀ v ∈ n.attributeValue?, Covered shade v ∧ Untabled shade v) ∧
      (report ⟨"a.tsx", "a.tsx"⟩ shadeMarked {} = report ⟨"a.tsx", "a.tsx"⟩ shade {} ↔
        ({} : Config).isFileExempt "a.tsx" ∨ ∀ n ∈ classAttributes shade,
          uncovered ⟨"a.tsx", "a.tsx"⟩ shade {} shade.slice n =
            attributeFindings ⟨"a.tsx", "a.tsx"⟩ shade {} shade.slice n)) ∧
    ∃ v e : Node, v.kind = .jsxExpression ∧ e ∈ v.children.head? ∧ e.leads (gains tint) ∧
      v.start < e.start ∧
      ((valueViolations ⟨"a.tsx", "a.tsx"⟩ tint {} (v.annotate (gains tint) .still)).map
          Violation.unplaced =
          (valueViolations ⟨"a.tsx", "a.tsx"⟩ tint {} v).map Violation.unplaced ↔
        valueViolations ⟨"a.tsx", "a.tsx"⟩ tint {} v = []) := by
  have hd : shade.Delimited := by decide +kernel
  have hreport := report_marked_exact shadePlaces ⟨"a.tsx", "a.tsx"⟩ {} shade shadeMarked
  have hshade := hreport.unchanged_iff shade_wellFormed hd marked_shade
  refine ⟨⟨shade_wellFormed, hd, marked_shade, shade_covered,
    hshade fun n hn v hv => (shade_covered n hn v hv).2⟩,
    .mk .jsxExpression .item 11 27 [.mk .string .item 12 26 []], .mk .string .item 12 26 [], ?_⟩
  have hlead : leads (gains tint) (.mk .string .item 12 26 []) := by decide +kernel
  exact ⟨rfl, rfl, hlead, by decide,
    (report_marked_exact .still ⟨"a.tsx", "a.tsx"⟩ {} tint tint).container (gains tint) _ _ rfl rfl
      hlead (by decide)⟩

/-- The violation of the class is not reported any more when the color has its comment. -/
theorem shade_hidden : shade.WellFormed ∧ shadeMarked.text = (plan shade).apply shade.text ∧
    (∀ n ∈ classAttributes shade, ∀ v ∈ n.attributeValue?, Untabled shade v) ∧
    (report ⟨"a.tsx", "a.tsx"⟩ shade {}).map (·.messageId) = ["disallowColor"] ∧
    report ⟨"a.tsx", "a.tsx"⟩ shadeMarked {} = [] :=
  ⟨shade_wellFormed, shadeMarked_text, fun n hn v hv => (shade_covered n hn v hv).2,
    by decide +kernel, by decide +kernel⟩

end TokenLint.Codemod.HexColor
