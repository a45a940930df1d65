import Mathlib.Data.List.Perm.Subperm
import TokenLint.Rule.ArbitraryValue
import TokenLint.Proofs.Rule.ClassString
import TokenLint.Proofs.Text.Words

/-!
# What is reported of a class attribute

The violations of a file are those of its class attributes, one by one, and but for their place they
depend on the texts of the class strings only. Of a container the first child is looked at. So a
comment in front of its expression leaves nothing to report.
-/
namespace TokenLint

/-- A violation as if it had no place. -/
def Violation.unplaced (v : Violation) : Violation := { v with location := ⟨"", 0, 0, 0, 0⟩ }

namespace ArbitraryValueRule
open Source Source.Node

/-- The violations of some classes, without a place. -/
def findings (context : FileContext) (config : Config) (names : List String) : List Violation :=
  names.filterMap fun className => (kindOf? config className).map fun kind =>
    { code, rule := name, messageId := kind.messageId, severity := severity config context kind
      location := ⟨"", 0, 0, 0, 0⟩, message := message className kind }

/-- Whether a name in a file is that of a function that passes its arguments on. -/
def isHelper (file : SourceFile) (config : Config) (f : Span) : Bool :=
  config.classMergeHelpers.contains (file.slice f)

/-- Where the class strings of an attribute's value are. -/
def valueSpans (isHelper : Span → Bool) (value : Node) : List Span :=
  match value.kind with
  | .string => [value.content]
  | .jsxExpression => (value.contained?.map (classSpans isHelper)).getD []
  | _ => []

/-- The classes in some ranges, each once. -/
def namesIn (read : Span → String) (spans : List Span) : List String :=
  Text.distinct ((spans.map read).flatMap Text.words)

/-- The violations of an attribute, without their place, if its class strings read as they do by
`read`. -/
def attributeFindings (context : FileContext) (file : SourceFile) (config : Config)
    (read : Span → String) (n : Node) : List Violation :=
  (n.attributeValue?.map fun value =>
    findings context config (namesIn read (valueSpans (isHelper file config) value))).getD []

/-- All violations of a file, without their places. -/
def report (context : FileContext) (file : SourceFile) (config : Config) : List Violation :=
  (check context file config).map Violation.unplaced

variable {context : FileContext} {file : SourceFile} {config : Config}

theorem classNames_eq (value : Node) : classNames file config value =
    namesIn file.slice (valueSpans (isHelper file config) value) := by
  have hstrings : classStrings file config value =
      (valueSpans (isHelper file config) value).map file.slice := by
    unfold classStrings valueSpans
    cases value.kind
    case jsxExpression => cases value.contained? <;> rfl
    all_goals rfl
  rw [classNames, namesIn, hstrings]

theorem unplaced_valueViolations (value : Node) :
    (valueViolations context file config value).map Violation.unplaced =
      findings context config (namesIn file.slice (valueSpans (isHelper file config) value)) := by
  rw [valueViolations, findings, List.map_filterMap, classNames_eq]
  refine List.filterMap_congr fun className _ => ?_
  rw [Option.map_map]
  rfl

/-- A report goes attribute by attribute. -/
theorem report_eq (context : FileContext) (file : SourceFile) (config : Config) :
    report context file config =
      if config.isFileExempt context.relativePath then []
      else (file.root.preorder.filter (isClassAttribute file)).flatMap
        (attributeFindings context file config file.slice) := by
  rw [report, check]
  split
  · rfl
  · rw [List.map_flatMap, descendants, map_node_visits]
    refine List.flatMap_congr fun n _ => ?_
    rw [attributeFindings]
    cases n.attributeValue? with
    | none => rfl
    | some value => exact unplaced_valueViolations value

/-- Fewer class strings have no more violations. -/
theorem length_findings_le {read : Span → String} {spans spans' : List Span}
    (h : spans'.Sublist spans) : (findings context config (namesIn read spans')).length ≤
      (findings context config (namesIn read spans)).length := by
  have hsub : (namesIn read spans').Subperm (namesIn read spans) := by
    refine (Text.nodup_distinct _).subperm fun className hmem => Text.mem_distinct.mpr ?_
    obtain ⟨s, hs, hword⟩ := List.mem_flatMap.mp (Text.mem_distinct.mp hmem)
    exact List.mem_flatMap.mpr ⟨s, (h.map read).subset hs, hword⟩
  obtain ⟨names, hperm, hsublist⟩ := hsub
  rw [findings, ← (hperm.filterMap _).length_eq]
  exact (hsublist.filterMap _).length_le

/-! ### A comment in front -/

/-- Behind a comment nothing is read of a container. -/
theorem valueSpans_of_comment {isHelper : Span → Bool} {value : Node}
    (hk : value.kind = .jsxExpression) (hhead : value.children.head?.map kind = some .comment) :
    valueSpans isHelper value = [] := by
  obtain ⟨c, hc, hkind⟩ := Option.map_eq_some_iff.mp hhead
  rw [valueSpans, hk]
  dsimp only
  rw [contained?, hc, Option.map_some, Option.getD_some, classSpans_of_comment hkind]

variable {marked marked' : Node → Bool} {p p' : Places} {n : Node}

/-- What comes of an attribute's value. -/
def valued (marked : Node → Bool) (p : Places) (n : Node) : Node :=
  if n.leads marked then braced p n (n.annotate marked p) else n.annotate marked p

theorem attributeValue?_annotate (hk : n.kind = .jsxAttribute) :
    (n.annotate marked p).attributeValue? = n.attributeValue?.map (valued marked p) := by
  have hchildren : (n.annotate marked p).children = n.children.map (valued marked p) :=
    children_annotate_attribute hk
  unfold attributeValue?
  rw [hchildren]
  rcases n.children with _ | ⟨label, _ | ⟨value, rest⟩⟩
  · rfl
  · rfl
  · exact List.getLast?_map (l := value :: rest)

section
variable {R : List Span → List Span → Prop} {isHelper isHelper' : Span → Bool} (hR : Joins R)
include hR

/-- What is read of a value with comments put in, and of the same value with others. -/
theorem valueSpans_valued (hless : ∀ c : Node, c.leads marked' → c.leads marked)
    (hcut : ∀ c : Node, c.leads marked → c.leads marked' = false → ∀ spans, R [] spans)
    (hn : ∀ m ∈ n.preorder,
      Alike R isHelper isHelper' m (m.annotate marked p) (m.annotate marked' p')) :
    R (valueSpans isHelper (valued marked p n)) (valueSpans isHelper' (valued marked' p' n)) := by
  have hbraced : ∀ (isHelper : Span → Bool) (p : Places) (n' : Node),
      valueSpans isHelper (braced p n n') = [] := fun _ _ _ => valueSpans_of_comment rfl rfl
  have hself : R (valueSpans isHelper (n.annotate marked p))
      (valueSpans isHelper' (n.annotate marked' p')) := by
    unfold valueSpans
    rw [kind_annotate, kind_annotate]
    split
    · rename_i hk
      exact (hn n (mem_preorder_self n)).string hk
    · rename_i hk
      have hne : n.kind ≠ .jsxAttribute := by simp [hk]
      rw [contained?, contained?, head?_children_annotate hne, head?_children_annotate hne]
      cases hhead : n.children.head? with
      | none => exact hR.nil
      | some c =>
        have hc := mem_preorder_of_mem_children (List.mem_of_head? hhead)
        exact classSpans_unless hR hless hcut c _ (classSpans_of_comment rfl)
          (classSpans_of_comment rfl)
          (classSpans_annotate hR hless hcut fun m hm => hn m (mem_preorder_trans hc hm))
    · exact hR.nil
  unfold valued
  cases hlead : n.leads marked with
  | false =>
    cases hlead' : n.leads marked' with
    | false => exact hself
    | true => exact absurd (hless n hlead') (by simp [hlead])
  | true =>
    cases hlead' : n.leads marked' with
    | false => simpa [hbraced] using hcut n hlead hlead' _
    | true => simpa [hbraced] using hR.nil

end

theorem valueSpans_sublist {isHelper : Span → Bool} (n : Node) :
    (valueSpans isHelper (valued marked .still n)).Sublist (valueSpans isHelper n) := by
  have h : (valueSpans isHelper (valued marked .still n)).Sublist
      (valueSpans isHelper (valued (fun _ => false) .still n)) :=
    valueSpans_valued joins_sublist (fun c h => by simp [leads_none] at h)
      (fun _ _ _ spans => List.nil_sublist spans) fun m _ => alike_still m
  have hnone : valued (fun _ => false) .still n = n := by
    rw [valued, leads_none, if_neg Bool.false_ne_true, annotate_none]
  rwa [hnone] at h

end ArbitraryValueRule
end TokenLint
