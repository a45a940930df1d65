import TokenLint.Proofs.Rule.ArbitraryValue
import TokenLint.Proofs.Rule.Contribution

/-!
# The report of a class attribute

A file that is not exempt is reported attribute by attribute, and an attribute class by class: the
words of its class strings, each where it appears first, as far as they have a kind. The classes
settle the report but for its place, in whichever strings they stand.
-/
namespace TokenLint.ArbitraryValueRule
open Source Source.Node

variable {context context' : FileContext} {file file' : SourceFile} {config : Config}
variable {value value' : Node} {classes : List String}

/-! ### The classes of a value -/

/-- The class strings of an attribute's value: a plain string, or an expression in braces. -/
inductive Holds (file : SourceFile) (config : Config) : Node → List String → Prop
  | quoted {value : Node} (kind : value.kind = .string) :
      Holds file config value [file.slice value.content]
  | expression {value c : Node} {strings : List String} (kind : value.kind = .jsxExpression)
      (first : value.children.head? = some c)
      (inner : Contributes file config.classMergeHelpers c strings) :
      Holds file config value strings
  | empty {value : Node} (kind : value.kind = .jsxExpression) (empty : value.children = []) :
      Holds file config value []

/-- Whether a value is of a kind that holds class strings. -/
def isHolder (value : Node) : Bool := value.kind == .string || value.kind == .jsxExpression

theorem holds_iff {strings : List String} :
    Holds file config value strings ↔
      isHolder value ∧ classStrings file config value = strings := by
  unfold classStrings isHolder contained?
  constructor
  · rintro (kind | ⟨kind, first, inner⟩ | ⟨kind, empty⟩)
    · simp [kind]
    · simp [kind, first, contributes_iff.mp inner]
    · simp [kind, empty]
  · rintro ⟨hholder, rfl⟩
    obtain kind | kind : value.kind = .string ∨ value.kind = .jsxExpression := by
      simpa using hholder
    · rw [kind]
      exact .quoted kind
    · rw [kind]
      cases hhead : value.children.head? with
      | none => exact .empty kind (List.head?_eq_none_iff.mp hhead)
      | some c => exact .expression kind hhead (contributes_iff.mpr rfl)

/-- The different words of the class strings of a value, in the order of their first appearance. -/
def Lists (file : SourceFile) (config : Config) (value : Node) (classes : List String) : Prop :=
  ∃ strings words, Holds file config value strings ∧
    List.Forall₂ (fun s ws => Text.Splits s.toList ws) strings words ∧
    Text.FirstSeen words.flatten classes

theorem lists_iff :
    Lists file config value classes ↔ isHolder value ∧ classNames file config value = classes := by
  have hwords : ∀ {strings : List String} {words : List (List String)},
      List.Forall₂ (fun s ws => Text.Splits s.toList ws) strings words ↔
        strings.map Text.words = words :=
    forall₂_iff fun s _ ws => Text.words_eq_iff.symm
  rw [classNames, List.flatMap_def]
  constructor
  · rintro ⟨strings, words, holds, splits, firstSeen⟩
    obtain ⟨hholder, rfl⟩ := holds_iff.mp holds
    exact ⟨hholder, by rw [hwords.mp splits, firstSeen.eq_distinct]⟩
  · rintro ⟨hholder, rfl⟩
    exact ⟨_, _, holds_iff.mpr ⟨hholder, rfl⟩, hwords.mpr rfl, Text.firstSeen_distinct _⟩

/-! ### What is said of them -/

/-- What is said of a class of some kind. -/
def violation (context : FileContext) (file : SourceFile) (config : Config) (value : Node)
    (className : String) (kind : ArbitraryKind) : Violation :=
  { code, rule := name, messageId := kind.messageId, severity := severity config context kind
    location := context.locate file value, message := message className kind }

/-- The violations of a value are one for each of its classes that has a kind, in their order. -/
def Reports (context : FileContext) (file : SourceFile) (config : Config) (value : Node)
    (classes : List String) (vs : List Violation) : Prop :=
  Lists file config value classes ∧
  List.Forall₂ (fun className v => ∃ kind, kindOf? config className = some kind ∧
      v = violation context file config value className kind)
    (classes.filter fun className => (kindOf? config className).isSome) vs

/-- One for each of the classes with a kind, in their order, is what is said of the classes. -/
theorem forall₂_kinded_iff {kindOf? : String → Option ArbitraryKind}
    {say : String → ArbitraryKind → Violation} {vs : List Violation} :
    List.Forall₂ (fun className v => ∃ kind, kindOf? className = some kind ∧ v = say className kind)
      (classes.filter fun className => (kindOf? className).isSome) vs ↔
    vs = classes.filterMap fun className => (kindOf? className).map (say className) := by
  induction classes generalizing vs with
  | nil => simp
  | cons className classes ih =>
    cases hkind : kindOf? className with
    | none => simpa [hkind] using ih
    | some kind =>
      cases vs with
      | nil => simp [hkind]
      | cons v vs => simp [hkind, ih]

theorem reports_iff {vs : List Violation} : Reports context file config value classes vs ↔
    Lists file config value classes ∧ vs = valueViolations context file config value := by
  refine and_congr_right fun lists => ?_
  rw [valueViolations, (lists_iff.mp lists).2]
  exact forall₂_kinded_iff

/-- The class attributes with a value that holds class strings, in document order. -/
def classAttributesOf (file : SourceFile) : List Node :=
  file.root.preorder.filter fun n => isClassAttribute file n && n.attributeValue?.any isHolder

theorem flatMap_filter_of_nil {α β : Type} {keep keep' : α → Bool} {f : α → List β} {xs : List α}
    (h : ∀ x ∈ xs, keep' x = false → f x = []) :
    (xs.filter keep).flatMap f = (xs.filter fun x => keep x && keep' x).flatMap f := by
  rw [← flatMap_filter, ← flatMap_filter]
  refine List.flatMap_congr fun x hx => ?_
  cases hkeep : keep' x with
  | true => rw [Bool.and_true]
  | false => simp [h x hx hkeep]

/-- Nothing is read of a value of another kind. -/
theorem valueViolations_of_not_isHolder (h : isHolder value = false) :
    valueViolations context file config value = [] := by
  have hnone : classStrings file config value = [] := by
    unfold classStrings
    split
    · rename_i kind
      simp [isHolder, kind] at h
    · rename_i kind
      simp [isHolder, kind] at h
    · rfl
  rw [valueViolations, classNames, hnone]
  rfl

/-- A file that is not exempt is reported attribute by attribute. -/
theorem check_eq (h : config.isFileExempt context.relativePath = false) :
    check context file config = (classAttributesOf file).flatMap fun n =>
      (n.attributeValue?.map (valueViolations context file config)).getD [] := by
  rw [check, h, if_neg Bool.false_ne_true, descendants, map_node_visits, classAttributesOf]
  refine flatMap_filter_of_nil fun n _ hn => ?_
  cases hvalue : n.attributeValue? with
  | none => rfl
  | some value =>
    rw [hvalue, Option.any_some] at hn
    exact valueViolations_of_not_isHolder hn

/-- Of the place of a file only whether it is a story counts for what is said. -/
theorem findings_congr (h : context.isStory = context'.isStory) (names : List String) :
    findings context config names = findings context' config names := by
  have hseverity : severity config context = severity config context' := by
    funext kind
    cases kind <;> simp only [severity, h]
  rw [findings, findings, hseverity]

/-- A report is one of each class attribute in turn, and two attributes with the same classes are
told the same, in whatever expressions the classes stand. -/
theorem check_reports_each_class (context : FileContext) (file : SourceFile) (config : Config)
    (h : config.isFileExempt context.relativePath = false) :
    (∃ reports : List (List Violation), check context file config = reports.flatten ∧
      List.Forall₂ (fun n vs => ∃ value classes, n.attributeValue? = some value ∧
        Reports context file config value classes vs) (classAttributesOf file) reports) ∧
    ∀ (context' : FileContext) (file' : SourceFile) (value value' : Node) (classes : List String)
      (vs vs' : List Violation), context'.isStory = context.isStory →
        Reports context file config value classes vs →
        Reports context' file' config value' classes vs' →
        vs.map Violation.unplaced = vs'.map Violation.unplaced := by
  constructor
  · refine ⟨(classAttributesOf file).map fun n =>
      (n.attributeValue?.map (valueViolations context file config)).getD [], ?_, ?_⟩
    · rw [check_eq h, List.flatMap_def]
    · rw [List.forall₂_map_right_iff, List.forall₂_same]
      intro n hn
      have hholder : n.attributeValue?.any isHolder = true :=
        (Bool.and_eq_true_iff.mp (List.mem_filter.mp hn).2).2
      obtain ⟨value, hvalue, hholder⟩ := (Option.any_eq_true _ _).mp hholder
      refine ⟨value, _, hvalue, reports_iff.mpr ⟨lists_iff.mpr ⟨hholder, rfl⟩, ?_⟩⟩
      rw [hvalue, Option.map_some, Option.getD_some]
  · intro context' file' value value' classes vs vs' hstory reports reports'
    obtain ⟨lists, rfl⟩ := reports_iff.mp reports
    obtain ⟨lists', rfl⟩ := reports_iff.mp reports'
    rw [unplaced_valueViolations, unplaced_valueViolations, ← classNames_eq, ← classNames_eq,
      (lists_iff.mp lists).2, (lists_iff.mp lists').2]
    exact findings_congr hstory.symm _

/-- The same classes in a plain text, and spread over the arguments of a call. -/
def styled : SourceFile := .parse ("<a class=\"w-[3px] p-2 z-[9]\">" ++
  "<b class=\x7bcn(\"w-[3px] p-2\", c ? `w-[3px]` : [\"z-[9]\"])\x7d/></a>")

theorem styled_reports_each_class :
    ({} : Config).isFileExempt "a.tsx" = false ∧
    (∃ reports : List (List Violation),
      check ⟨"a.tsx", "a.tsx"⟩ styled {} = reports.flatten ∧
      List.Forall₂ (fun n vs => ∃ value classes, n.attributeValue? = some value ∧
        Reports ⟨"a.tsx", "a.tsx"⟩ styled {} value classes vs) (classAttributesOf styled) reports) ∧
    ∃ plain spread vs vs',
      (classAttributesOf styled).filterMap attributeValue? = [plain, spread] ∧
      Reports ⟨"a.tsx", "a.tsx"⟩ styled {} plain ["w-[3px]", "p-2", "z-[9]"] vs ∧
      Reports ⟨"a.tsx", "a.tsx"⟩ styled {} spread ["w-[3px]", "p-2", "z-[9]"] vs' ∧
      vs.map Violation.unplaced = vs'.map Violation.unplaced ∧
      vs.map (·.messageId) = ["disallowDimension", "disallowZIndex"] := by
  have hexempt : ({} : Config).isFileExempt "a.tsx" = false := by decide +kernel
  obtain ⟨heach, hsame⟩ := check_reports_each_class ⟨"a.tsx", "a.tsx"⟩ styled {} hexempt
  have htwo : ((classAttributesOf styled).filterMap attributeValue?).length = 2 := by decide +kernel
  have hvalue : ∀ value ∈ (classAttributesOf styled).filterMap attributeValue?,
      (isHolder value ∧ classNames styled {} value = ["w-[3px]", "p-2", "z-[9]"]) ∧
      (valueViolations ⟨"a.tsx", "a.tsx"⟩ styled {} value).map (·.messageId) =
        ["disallowDimension", "disallowZIndex"] := by
    decide +kernel
  have hreports : ∀ value ∈ (classAttributesOf styled).filterMap attributeValue?,
      Reports ⟨"a.tsx", "a.tsx"⟩ styled {} value ["w-[3px]", "p-2", "z-[9]"]
        (valueViolations ⟨"a.tsx", "a.tsx"⟩ styled {} value) :=
    fun value h => reports_iff.mpr ⟨lists_iff.mpr (hvalue value h).1, rfl⟩
  obtain ⟨plain, spread, htwo⟩ := List.length_eq_two.mp htwo
  have hplain : plain ∈ (classAttributesOf styled).filterMap attributeValue? := by simp [htwo]
  have hspread : spread ∈ (classAttributesOf styled).filterMap attributeValue? := by simp [htwo]
  exact ⟨hexempt, heach, plain, spread, _, _, htwo, hreports plain hplain,
    hreports spread hspread,
    hsame _ _ _ _ _ _ _ rfl (hreports plain hplain) (hreports spread hspread),
    (hvalue plain hplain).2⟩

end TokenLint.ArbitraryValueRule
