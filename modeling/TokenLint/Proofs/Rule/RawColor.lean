import Mathlib.Data.List.Forall2
import TokenLint.Rule.RawColor
import TokenLint.Proofs.Color
import TokenLint.Proofs.Source.Walk

/-!
# Every raw color of a file is reported once

The walk meets one literal on several visits: its own, and those of the attribute, container,
pair, variable, assignment or call that it is the value of. Whichever visit comes first, what is
reported are, range by range, the literals of the tree that are raw colors.
-/
namespace TokenLint

namespace Source.Node

/-- What parentheses hold is below them. -/
theorem bare_mem_preorder (n : Node) : n.bare ∈ n.preorder := by
  fun_induction bare n with
  | case1 r s e => exact mem_preorder_self _
  | case2 r s e c cs ih =>
    have hc : c ∈ (mk .parenthesized r s e (c :: cs)).children := List.mem_cons_self
    exact mem_preorder_trans (mem_preorder_of_mem_children hc) ih
  | case3 n => exact mem_preorder_self n

theorem bare_of_kind_ne {n : Node} (h : n.kind ≠ .parenthesized) : n.bare = n := by
  fun_induction bare n with
  | case1 => rfl
  | case2 => exact absurd rfl h
  | case3 => rfl

end Source.Node

namespace RawColorRule
open Source

/-- A static text of a tree, with its node: that of a string, or one part of a template. -/
inductive IsLiteral (root : Node) : Candidate → Prop
  | string {n : Node} (mem : n ∈ root.preorder) (kind : n.kind = .string) :
      IsLiteral root ⟨n, n.content⟩
  | template {n : Node} {span : Span} (mem : n ∈ root.preorder) (kind : n.kind = .template)
      (quasi : span ∈ n.quasis) : IsLiteral root ⟨n, span⟩

variable {file : SourceFile} {root n : Node} {c : Candidate}

/-- A node's own literals are static texts of the tree. -/
theorem isLiteral_of_mem_literals (hn : n ∈ root.preorder) (h : c ∈ literals n) :
    IsLiteral root c := by
  have hbare : n.bare ∈ root.preorder := Node.mem_preorder_trans hn n.bare_mem_preorder
  unfold literals at h
  split at h
  · rename_i hk
    obtain rfl := List.mem_singleton.mp h
    exact .string hbare hk
  · rename_i hk
    obtain ⟨span, hspan, rfl⟩ := List.mem_map.mp h
    exact .template hbare hk hspan
  · cases h

theorem attributeValue?_mem {m : Node} (h : n.attributeValue? = some m) : m ∈ n.children := by
  unfold Node.attributeValue? at h
  split at h
  · rename_i name value rest hcs
    rw [hcs]
    exact List.mem_cons_of_mem name (List.mem_of_getLast? h)
  · cases h

theorem contained?_mem {m : Node} (h : n.contained? = some m) : m ∈ n.children :=
  List.mem_of_head? h

/-- Where a node may be missing there is either no candidate, or one of the node that is there. -/
theorem isLiteral_of_mem_getD {o : Option Node} {f : Node → List Candidate}
    (hf : ∀ m, o = some m → c ∈ f m → IsLiteral root c) (h : c ∈ (o.map f).getD []) :
    IsLiteral root c := by
  cases o with
  | none => cases h
  | some m => exact hf m rfl h

theorem isLiteral_of_mem_valueLiterals (hn : n ∈ root.preorder) (h : c ∈ valueLiterals n) :
    IsLiteral root c := by
  unfold valueLiterals at h
  split at h
  · refine isLiteral_of_mem_getD (fun m hm hc => ?_) h
    exact isLiteral_of_mem_literals (Node.mem_preorder_child hn (contained?_mem hm)) hc
  · exact isLiteral_of_mem_literals hn h

/-- No visit adds anything: its candidates are static texts of the tree. -/
theorem isLiteral_of_mem_candidates (hn : n ∈ root.preorder) (h : c ∈ candidates file n) :
    IsLiteral root c := by
  have hrole : ∀ role : Role, c ∈ ((n.child? role).map literals).getD [] → IsLiteral root c := by
    intro role
    refine isLiteral_of_mem_getD fun m hm hc => ?_
    have hmem : m ∈ n.children := List.mem_of_find?_eq_some hm
    exact isLiteral_of_mem_literals (Node.mem_preorder_child hn hmem) hc
  unfold candidates at h
  dsimp only at h
  split at h
  · exact isLiteral_of_mem_literals hn h
  · exact isLiteral_of_mem_literals hn h
  · refine isLiteral_of_mem_getD (fun m hm hc => ?_) h
    exact isLiteral_of_mem_valueLiterals (Node.mem_preorder_child hn (attributeValue?_mem hm)) hc
  · refine isLiteral_of_mem_getD (fun m hm hc => ?_) h
    exact isLiteral_of_mem_valueLiterals (Node.mem_preorder_child hn (contained?_mem hm)) hc
  · split at h
    · exact hrole .value h
    · cases h
  · exact hrole .value h
  · exact hrole .right h
  all_goals first
    | cases h
    | refine isLiteral_of_mem_getD (fun args hargs hc => ?_) h
      obtain ⟨m, hm, hc⟩ := List.mem_flatMap.mp hc
      have hmem : args ∈ n.children := List.mem_of_find?_eq_some hargs
      exact isLiteral_of_mem_literals
        (Node.mem_preorder_child (Node.mem_preorder_child hn hmem) hm) hc

/-- No visit is needed but a literal's own: it looks at all static texts of the literal. -/
theorem mem_candidates_of_isLiteral (h : IsLiteral root c) :
    c.node ∈ root.preorder ∧ c ∈ candidates file c.node := by
  cases h with
  | @string n mem kind =>
    have hbare : n.bare = n := Node.bare_of_kind_ne (by rw [kind]; decide)
    refine ⟨mem, ?_⟩
    simp [candidates, kind, literals, hbare]
  | @template n span mem kind quasi =>
    have hbare : n.bare = n := Node.bare_of_kind_ne (by rw [kind]; decide)
    refine ⟨mem, ?_⟩
    simpa [candidates, kind, literals, hbare] using quasi

/-- The candidates of all visits are the static texts of the tree. -/
theorem mem_flatMap_candidates :
    c ∈ root.descendants.flatMap (candidates file) ↔ IsLiteral root c := by
  rw [List.mem_flatMap]
  constructor
  · rintro ⟨n, hn, hc⟩
    exact isLiteral_of_mem_candidates (Node.mem_descendants.mp hn) hc
  · intro h
    obtain ⟨hmem, hc⟩ := mem_candidates_of_isLiteral h
    exact ⟨c.node, Node.mem_descendants.mpr hmem, hc⟩

/-! ### Each range once -/

section
variable {reported more : Reported} {span : Span}

theorem Reported.insert?_eq_none_iff : reported.insert? span = none ↔ span ∈ reported.spans := by
  unfold insert?
  split
  · rename_i h
    exact iff_of_true rfl (List.contains_iff_mem.mp h)
  · rename_i h
    exact iff_of_false (Option.some_ne_none _) fun hmem => h (List.contains_iff_mem.mpr hmem)

theorem Reported.spans_of_insert? (h : reported.insert? span = some more) :
    span ∉ reported.spans ∧ more.spans = span :: reported.spans := by
  have hnew : span ∉ reported.spans := fun hmem => by
    rw [insert?_eq_none_iff.mpr hmem] at h
    cases h
  unfold insert? at h
  split at h
  · cases h
  · exact ⟨hnew, congrArg spans (Option.some.inj h).symm⟩

end

/-- The candidates that are reported: of those with one range the first that qualifies. -/
def reportedFrom (qualifies : Candidate → Bool) : Reported → List Candidate → List Candidate
  | _, [] => []
  | reported, c :: cs =>
    if qualifies c then
      match reported.insert? c.content with
      | none => reportedFrom qualifies reported cs
      | some reported => c :: reportedFrom qualifies reported cs
    else reportedFrom qualifies reported cs

variable {qualifies : Candidate → Bool} {cs : List Candidate}

/-- A report holds one violation for each of them, in their order. -/
theorem forall₂_report (violation? : Candidate → Option Violation) (reported : Reported)
    (cs : List Candidate) :
    List.Forall₂ (fun v d => violation? d = some v) (report violation? reported cs)
      (reportedFrom (fun d => (violation? d).isSome) reported cs) := by
  induction cs generalizing reported with
  | nil => exact .nil
  | cons c cs ih =>
    cases hv : violation? c with
    | none => simpa [report, reportedFrom, hv] using ih reported
    | some v =>
      cases hinsert : reported.insert? c.content with
      | none => simpa [report, reportedFrom, hv, hinsert] using ih reported
      | some more => simpa [report, reportedFrom, hv, hinsert] using ih more

theorem mem_of_mem_reportedFrom {reported : Reported}
    (h : c ∈ reportedFrom qualifies reported cs) :
    c ∈ cs ∧ qualifies c ∧ c.content ∉ reported.spans := by
  induction cs generalizing reported with
  | nil => cases h
  | cons d cs ih =>
    have hlater : c ∈ reportedFrom qualifies reported cs →
        c ∈ d :: cs ∧ qualifies c ∧ c.content ∉ reported.spans := fun h =>
      (ih h).imp_left (List.mem_cons_of_mem d)
    rw [reportedFrom] at h
    split at h
    · rename_i hqualifies
      split at h
      · exact hlater h
      · rename_i more hinsert
        obtain ⟨hnew, hspans⟩ := Reported.spans_of_insert? hinsert
        rcases List.mem_cons.mp h with rfl | h
        · exact ⟨List.mem_cons_self, hqualifies, hnew⟩
        · obtain ⟨hmem, hc, hseen⟩ := ih h
          rw [hspans] at hseen
          exact ⟨List.mem_cons_of_mem d hmem, hc, fun h => hseen (List.mem_cons_of_mem _ h)⟩
    · exact hlater h

theorem nodup_reportedFrom (reported : Reported) (cs : List Candidate) :
    ((reportedFrom qualifies reported cs).map Candidate.content).Nodup := by
  induction cs generalizing reported with
  | nil => exact .nil
  | cons d cs ih =>
    rw [reportedFrom]
    split
    · split
      · exact ih reported
      · rename_i more hinsert
        refine List.nodup_cons.mpr ⟨fun hmem => ?_, ih more⟩
        obtain ⟨c, hc, hspan⟩ := List.mem_map.mp hmem
        -- what is reported later has none of the ranges reported so far
        refine (mem_of_mem_reportedFrom hc).2.2 ?_
        rw [hspan, (Reported.spans_of_insert? hinsert).2]
        exact List.mem_cons_self
    · exact ih reported

/-- The range of a candidate that qualifies is reported, now or before. -/
theorem content_mem_reportedFrom (qualifies : Candidate → Bool) (reported : Reported)
    (hc : c ∈ cs) (hqualifies : qualifies c) : c.content ∈ reported.spans ∨
      c.content ∈ (reportedFrom qualifies reported cs).map Candidate.content := by
  induction cs generalizing reported with
  | nil => cases hc
  | cons d cs ih =>
    rw [reportedFrom]
    rcases List.mem_cons.mp hc with rfl | hc
    · rw [if_pos hqualifies]
      split
      · rename_i hinsert
        exact .inl (Reported.insert?_eq_none_iff.mp hinsert)
      · exact .inr List.mem_cons_self
    · split
      · split
        · exact ih reported hc
        · rename_i more hinsert
          rw [List.map_cons]
          rcases ih more hc with h | h
          · rw [(Reported.spans_of_insert? hinsert).2] at h
            exact (List.mem_cons.mp h).elim (fun h => .inr (h ▸ List.mem_cons_self)) .inl
          · exact .inr (List.mem_cons_of_mem _ h)
      · exact ih reported hc

/-- The color that a range of the text is, by the text that it stands for. -/
def colorAt? (file : SourceFile) (span : Span) : Option RawColor :=
  RawColor.classify? (Literal.decode (file.slice span))

/-- The range by which a literal is found: of a part of a template its own, of a string that of
its node. -/
def Candidate.place (c : Candidate) : Span :=
  if c.node.kind = .template then c.content else c.node.span

/-- What a violation says of the literal that it is about: where it stands, and which color it
is, by its text without the blanks around it. -/
structure Reports (file : SourceFile) (v : Violation) (c : Candidate) : Prop where
  literal : IsLiteral file.root c
  offset : v.location.offset = c.place.start
  length : v.location.length = c.place.stop - c.place.start
  color : ∃ color, colorAt? file c.content = some color ∧
    color.literal = Text.trim (Literal.decode (file.slice c.content)) ∧
    (∃ before after, v.message = before ++ "'" ++ color.literal ++ "'" ++ after) ∧
    (v.messageId = "useHslVar" ↔ ∃ literal, color = .hsl literal)

/-- The message quotes the literal, whatever the color. -/
theorem message_quotes (color : RawColor) :
    ∃ before after, message color = before ++ "'" ++ color.literal ++ "'" ++ after := by
  have havoid : "Avoid raw color literal '" = "Avoid raw color literal " ++ "'" := rfl
  have huse : "'. Use design tokens or Tailwind utilities " =
    "'" ++ ". Use design tokens or Tailwind utilities " := rfl
  have hwrap : "Wrap HSL colors with CSS variables: replace '" =
    "Wrap HSL colors with CSS variables: replace " ++ "'" := rfl
  have hwith : "' with hsl(var(--token-name))." = "'" ++ " with hsl(var(--token-name))." := rfl
  cases color with
  | hsl s =>
    refine ⟨"Wrap HSL colors with CSS variables: replace ", " with hsl(var(--token-name)).", ?_⟩
    unfold message RawColor.literal
    simp only [toString]
    rw [hwrap, hwith]
    simp only [String.append_assoc]
  | hex s | rgb s =>
    refine ⟨"Avoid raw color literal ", ". Use design tokens or Tailwind utilities " ++
      "(e.g., text-fg, bg-accent, var(--token)).", ?_⟩
    unfold message RawColor.literal
    simp only [toString]
    rw [havoid, huse]
    simp only [String.append_assoc]

theorem messageId_eq_useHslVar_iff (color : RawColor) :
    messageId color = "useHslVar" ↔ ∃ literal, color = .hsl literal := by
  cases color <;> simp [messageId]

theorem reports_of_violation? {severity : Severity} {context : FileContext} {v : Violation}
    (hc : IsLiteral file.root c) (h : violation? severity context file c = some v) :
    Reports file v c := by
  obtain ⟨color, hcolor, rfl⟩ := Option.map_eq_some_iff.mp h
  refine ⟨hc, ?_, ?_, color, hcolor, RawColor.literal_of_classify? hcolor, message_quotes color,
    messageId_eq_useHslVar_iff color⟩
  · by_cases hk : c.node.kind = .template <;>
      simp [Candidate.place, hk, FileContext.locate, Node.span]
  · by_cases hk : c.node.kind = .template <;>
      simp [Candidate.place, hk, FileContext.locate, Node.span]

/-- In a file that is not exempt each raw color is reported, and once: the violations are about
literals of pairwise distinct ranges, and these are the ranges of all strings and static parts of
templates that are raw colors. -/
theorem check_reports_each_once (severity : Severity) (context : FileContext) (file : SourceFile)
    (config : Config) (h : config.isFileExempt context.relativePath = false) :
    ∃ found : List Candidate,
      List.Forall₂ (Reports file) (check severity context file config) found ∧
      (found.map Candidate.content).Nodup ∧
      ∀ span, span ∈ found.map Candidate.content ↔
        (∃ c, IsLiteral file.root c ∧ c.content = span) ∧ (colorAt? file span).isSome := by
  have hsome : ∀ c, (violation? severity context file c).isSome =
      (colorAt? file c.content).isSome := fun c => Option.isSome_map
  have hcheck := forall₂_report (violation? severity context file) {}
    (file.root.descendants.flatMap (candidates file))
  generalize hfound : reportedFrom _ _ _ = found at hcheck
  have hsound : ∀ c ∈ found, IsLiteral file.root c ∧ (colorAt? file c.content).isSome := by
    intro c hc
    rw [← hfound] at hc
    obtain ⟨hmem, hqualifies, -⟩ := mem_of_mem_reportedFrom hc
    exact ⟨mem_flatMap_candidates.mp hmem, by rw [← hsome]; exact hqualifies⟩
  refine ⟨found, ?_, ?_, fun span => ⟨fun hspan => ?_, ?_⟩⟩
  · rw [check, if_neg (by rw [h]; decide)]
    have hpair := (List.forall₂_and_left found _).mpr
      ⟨fun c hc => (hsound c hc).1, hcheck.flip⟩
    exact (hpair.imp fun c v hcv => reports_of_violation? hcv.1 hcv.2).flip
  · rw [← hfound]
    exact nodup_reportedFrom {} _
  · obtain ⟨c, hc, rfl⟩ := List.mem_map.mp hspan
    exact ⟨⟨c, (hsound c hc).1, rfl⟩, (hsound c hc).2⟩
  · rintro ⟨⟨c, hc, rfl⟩, hcolor⟩
    rw [← hsome] at hcolor
    rw [← hfound]
    have hmem : c ∈ file.root.descendants.flatMap (candidates file) :=
      mem_flatMap_candidates.mpr hc
    have hcontent := content_mem_reportedFrom
      (fun d => (violation? severity context file d).isSome) {} hmem hcolor
    exact hcontent.resolve_left List.not_mem_nil

/-- A call whose arguments hold three raw colors, each met on two visits. -/
def palette : SourceFile := .parse "f(\x7b color: \"#fff\" \x7d, `hsl(1)$\x7bx\x7d#000`)"

theorem palette_reports_each_once :
    ({} : Config).isFileExempt "palette.ts" = false ∧
      (check .error ⟨"palette.ts", "palette.ts"⟩ palette {}).length = 3 ∧
      ∃ found : List Candidate,
        List.Forall₂ (Reports palette)
          (check .error ⟨"palette.ts", "palette.ts"⟩ palette {}) found ∧
        (found.map Candidate.content).Nodup ∧
        ∀ span, span ∈ found.map Candidate.content ↔
          (∃ c, IsLiteral palette.root c ∧ c.content = span) ∧ (colorAt? palette span).isSome := by
  have hexempt : ({} : Config).isFileExempt "palette.ts" = false := by decide +kernel
  exact ⟨hexempt, by decide +kernel,
    check_reports_each_once .error ⟨"palette.ts", "palette.ts"⟩ palette {} hexempt⟩

end RawColorRule
end TokenLint
