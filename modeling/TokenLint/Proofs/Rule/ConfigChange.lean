import Mathlib.Data.List.TakeWhile
import TokenLint.Rule.RawColor
import TokenLint.Proofs.Config.Cache
import TokenLint.Proofs.Rule.ClassReport

/-!
# Changes of the configuration

Two runs over one file, under configurations that differ in one setting: more exempt patterns take
out of the report what they match, the flag for typography grades its violations, and more exempt
paths silence a file or leave it alone. Of all this raw colors only see the paths.
-/
namespace TokenLint

namespace Config

variable {s : Settings} {a : Allowlist} {c : Config}

/-- A configuration has its contents from some settings and an allowlist, in whatever files they
were found. -/
def Holds (s : Settings) (a : Allowlist) (c : Config) : Prop :=
  merge s a = .ok { c with configPath := none, allowlistPath := none }

/-- What settings and an allowlist come to, given what its patterns compile to. -/
def contents (s : Settings) (a : Allowlist) (patterns : List Pattern) : Config where
  warnLineHeightAndTracking := s.warnLineHeightAndTracking.getD true
  classMergeHelpers := Text.distinct (s.classMergeHelpers.getD ["clsx", "classnames", "cn"])
  allowlist := a
  exemptPaths := .ofPatterns a.paths
  exemptClasses := patterns

theorem merge_eq_ok : merge s a = .ok c ↔
    ∃ patterns, compilePatterns a.classPatterns = .ok patterns ∧ contents s a patterns = c := by
  rw [merge]
  cases compilePatterns a.classPatterns with
  | error e => simp [Except.map]
  | ok patterns => simp [Except.map, contents]

/-- The parts of the contents that the rules look at. -/
structure Parts (s : Settings) (a : Allowlist) (c : Config) : Prop where
  flag : c.warnLineHeightAndTracking = s.warnLineHeightAndTracking.getD true
  helpers : c.classMergeHelpers =
    Text.distinct (s.classMergeHelpers.getD ["clsx", "classnames", "cn"])
  paths : c.exemptPaths = .ofPatterns a.paths
  classes : compilePatterns a.classPatterns = .ok c.exemptClasses

theorem Holds.parts (h : Holds s a c) : Parts s a c := by
  obtain ⟨patterns, hpatterns, hc⟩ := merge_eq_ok.mp h
  rw [contents, Config.mk.injEq] at hc
  obtain ⟨hflag, hhelpers, -, -, -, hpaths, hclasses⟩ := hc
  exact ⟨hflag.symm, hhelpers.symm, hpaths.symm, by rw [hpatterns, hclasses]⟩

/-- There is a configuration wherever the patterns are some. -/
theorem exists_holds {patterns : List Pattern}
    (h : compilePatterns a.classPatterns = .ok patterns) : ∃ c, Holds s a c :=
  ⟨contents s a patterns, merge_eq_ok.mpr ⟨patterns, h, rfl⟩⟩

/-- What is read for a request is the contents of its settings and its allowlist. -/
theorem holds_of_load {r : Request} {tree : FileTree} (h : r.load tree = .ok c) :
    ∃ s a, r.settings tree = .ok s ∧ r.allowlist tree s = .ok a ∧ Holds s a c := by
  obtain ⟨s, a, merged, hs, ha, hmerged, rfl⟩ := Request.load_eq_ok.mp h
  obtain ⟨patterns, hpatterns, rfl⟩ := merge_eq_ok.mp hmerged
  exact ⟨s, a, hs, ha, merge_eq_ok.mpr ⟨patterns, hpatterns, rfl⟩⟩

theorem compilePatterns_cons_eq_ok {x : String} {xs : List String} {ps : List Pattern} :
    compilePatterns (x :: xs) = .ok ps ↔ ∃ p rest, Pattern.compile x = .ok p ∧
      compilePatterns xs = .ok rest ∧ p :: rest = ps := by
  rw [compilePatterns]
  cases Pattern.compile x with
  | error e => simp
  | ok p => cases compilePatterns xs <;> simp [Except.map]

theorem compilePatterns_append {xs ys : List String} {ps qs : List Pattern}
    (hxs : compilePatterns xs = .ok ps) (hys : compilePatterns ys = .ok qs) :
    compilePatterns (xs ++ ys) = .ok (ps ++ qs) := by
  induction xs generalizing ps with
  | nil =>
    cases hxs
    exact hys
  | cons x xs ih =>
    obtain ⟨p, rest, hx, hrest, rfl⟩ := compilePatterns_cons_eq_ok.mp hxs
    exact compilePatterns_cons_eq_ok.mpr ⟨p, rest ++ qs, hx, ih hrest, rfl⟩

/-- Some more globs, wherever they stand, are looked at beside the others. -/
theorem contains_ofPatterns {paths old new : List String} (h : paths.Perm (old ++ new))
    (path : String) : (PathMatcher.ofPatterns paths).contains path =
      ((PathMatcher.ofPatterns old).contains path ||
        (PathMatcher.ofPatterns new).contains path) := by
  have hglobs : (PathMatcher.ofPatterns paths).globs.Perm
      ((PathMatcher.ofPatterns old).globs ++ (PathMatcher.ofPatterns new).globs) := by
    have hall := h.filterMap fun p => (Glob.compile p true).toOption
    rwa [List.filterMap_append] at hall
  unfold PathMatcher.contains
  rw [hglobs.any_eq, List.any_append, Bool.and_or_distrib_left]

end Config

namespace ArbitraryValueRule
open Source

variable {context : FileContext} {file : SourceFile} {c c' : Config}

/-! ### The class of a violation -/

/-- What is behind the first apostrophe. -/
def afterQuote (cs : List Char) : List Char := (cs.dropWhile (· != '\'')).drop 1

/-- What is between the first apostrophe of a message and the last one. -/
def quoted (message : String) : String :=
  String.ofList (afterQuote (afterQuote message.toList).reverse).reverse

theorem afterQuote_append {front : List Char} (h : '\'' ∈ front) (cs : List Char) :
    afterQuote (front ++ cs) = afterQuote front ++ cs := by
  have hne : front.dropWhile (· != '\'') ≠ [] := by
    rw [ne_eq, List.dropWhile_eq_nil_iff]
    intro hall
    simpa using hall _ h
  rw [afterQuote, afterQuote, List.dropWhile_append, if_neg (by simpa using hne),
    List.drop_append_of_le_length (List.length_pos_iff.mpr hne)]

theorem quoted_append {a t b : String} (ha : '\'' ∈ a.toList ∧ afterQuote a.toList = [])
    (hb : '\'' ∈ b.toList ∧ afterQuote b.toList.reverse = []) : quoted (a ++ t ++ b) = t := by
  rw [quoted, String.toList_append, String.toList_append, List.append_assoc,
    afterQuote_append ha.1, ha.2, List.nil_append, List.reverse_append,
    afterQuote_append (List.mem_reverse.mpr hb.1), hb.2, List.nil_append, List.reverse_reverse,
    String.ofList_toList]

/-- A message quotes the class that it is about, also where the class has apostrophes. -/
theorem quoted_message (className : String) (kind : ArbitraryKind) :
    quoted (message className kind) = className := by
  cases kind with
  | color | zIndex =>
    dsimp only [message]
    rw [String.append_assoc]
    exact quoted_append (by decide) (by decide)
  | dimension | typography =>
    dsimp only [message]
    exact quoted_append (by decide) (by decide)

/-! ### Two runs -/

/-- The violation of a class, if it is of some kind. -/
def violation? (context : FileContext) (file : SourceFile) (config : Config) (value : Node)
    (className : String) : Option Violation :=
  (kindOf? config className).map (violation context file config value className)

/-- What becomes of each violation of a class becomes of those of the file. -/
theorem check_filterMap {g : Violation → Option Violation}
    (hpath : c'.isFileExempt context.relativePath = c.isFileExempt context.relativePath)
    (hhelpers : c'.classMergeHelpers = c.classMergeHelpers)
    (h : ∀ value className, violation? context file c' value className =
      (violation? context file c value className).bind g) :
    check context file c' = (check context file c).filterMap g := by
  have hvalue : ∀ value, valueViolations context file c' value =
      (valueViolations context file c value).filterMap g := by
    intro value
    -- Repeats are dropped before a class is looked at, so both runs look at the same classes.
    have hnames : classNames file c' value = classNames file c value := by
      rw [classNames, classNames, classStrings, classStrings, hhelpers]
    rw [valueViolations, valueViolations, hnames, List.filterMap_filterMap]
    exact List.filterMap_congr fun className _ => h value className
  rw [check, check, hpath]
  split
  · rfl
  · rw [List.filterMap_flatMap]
    refine List.flatMap_congr fun n _ => ?_
    cases n.attributeValue? with
    | none => rfl
    | some value => exact hvalue value

/-- The report without the violations of some classes. -/
theorem check_exempting (matched : String → Bool)
    (hpath : c'.isFileExempt context.relativePath = c.isFileExempt context.relativePath)
    (hhelpers : c'.classMergeHelpers = c.classMergeHelpers)
    (hflag : c'.warnLineHeightAndTracking = c.warnLineHeightAndTracking)
    (hclass : ∀ className, c'.isClassExempt className =
      (c.isClassExempt className || matched className)) :
    check context file c' =
      (check context file c).filter fun v => !matched (quoted v.message) := by
  have hseverity : severity c' context = severity c context := by
    funext kind
    cases kind <;> simp only [severity, hflag]
  rw [← List.filterMap_eq_filter]
  refine check_filterMap hpath hhelpers fun value className => ?_
  have hkind : kindOf? c' className =
      if matched className then none else kindOf? c className := by
    rw [kindOf?, kindOf?, hclass]
    cases matched className <;> simp
  rw [violation?, violation?, hkind]
  cases kindOf? c className with
  | none => simp
  | some kind =>
    have hsame : violation context file c' value className kind =
        violation context file c value className kind := by
      rw [violation, violation, hseverity]
    have hquoted : quoted (violation context file c value className kind).message = className :=
      quoted_message className kind
    cases hmatched : matched className <;> simp [Option.guard, hsame, hquoted, hmatched]

/-- A violation with the severity that a flag for typography gives it in a file. -/
def regraded (flag : Option Bool) (context : FileContext) (v : Violation) : Violation :=
  if v.messageId = "disallowTypography" then
    { v with severity := if flag ≠ some false ∧ ¬context.isStory then .warning else .error }
  else v

theorem messageId_eq_typography {kind : ArbitraryKind} :
    kind.messageId = "disallowTypography" ↔ kind = .typography := by
  cases kind <;> decide

theorem severity_typography {flag : Option Bool}
    (h : c.warnLineHeightAndTracking = flag.getD true) : severity c context .typography =
      if flag ≠ some false ∧ ¬context.isStory then .warning else .error := by
  rw [severity, h]
  rcases flag with _ | _ | _ <;> simp

/-- The report with its violations graded anew. -/
theorem check_regrading {flag : Option Bool}
    (hpath : c'.isFileExempt context.relativePath = c.isFileExempt context.relativePath)
    (hhelpers : c'.classMergeHelpers = c.classMergeHelpers)
    (hclass : c'.exemptClasses = c.exemptClasses)
    (hflag : c'.warnLineHeightAndTracking = flag.getD true) :
    check context file c' = (check context file c).map (regraded flag context) := by
  rw [← List.filterMap_eq_map]
  refine check_filterMap hpath hhelpers fun value className => ?_
  have hkind : kindOf? c' className = kindOf? c className := by
    rw [kindOf?, kindOf?, Config.isClassExempt, Config.isClassExempt, hclass]
  rw [violation?, violation?, hkind]
  cases kindOf? c className with
  | none => rfl
  | some kind =>
    refine congrArg some ?_
    rw [regraded]
    cases kind with
    | typography =>
      rw [violation, severity_typography hflag]
      exact (if_pos rfl).symm
    | color | dimension | zIndex => rfl

theorem exists_violation_of_mem_check {v : Violation} (h : v ∈ check context file c) :
    ∃ value className kind, v = violation context file c value className kind := by
  rw [check] at h
  split at h
  · cases h
  · obtain ⟨n, -, hv⟩ := List.mem_flatMap.mp h
    cases hvalue : n.attributeValue? with
    | none => simp [hvalue] at hv
    | some value =>
      rw [hvalue, Option.map_some, Option.getD_some, valueViolations] at hv
      obtain ⟨className, -, hclass⟩ := List.mem_filterMap.mp hv
      obtain ⟨kind, -, rfl⟩ := Option.map_eq_some_iff.mp hclass
      exact ⟨value, className, kind, rfl⟩

/-- Only typography is warned of, while the flag is on and outside of stories. -/
theorem severity_eq_warning_iff {flag : Option Bool} {v : Violation}
    (hflag : c.warnLineHeightAndTracking = flag.getD true) (hv : v ∈ check context file c) :
    v.severity = .warning ↔
      v.messageId = "disallowTypography" ∧ flag ≠ some false ∧ ¬context.isStory := by
  obtain ⟨value, className, kind, rfl⟩ := exists_violation_of_mem_check hv
  dsimp only [violation]
  rw [messageId_eq_typography]
  cases kind with
  | typography =>
    rw [severity_typography hflag]
    simp
  | color | dimension | zIndex => simp [severity]

end ArbitraryValueRule

/-- Of a configuration raw colors only see whether the file is exempt. -/
theorem RawColorRule.check_congr {level : Severity} {context : FileContext} {file : SourceFile}
    {c c' : Config}
    (h : c'.isFileExempt context.relativePath = c.isFileExempt context.relativePath) :
    check level context file c' = check level context file c := by
  rw [check, check, h]

namespace Config
open ArbitraryValueRule (quoted regraded)

/-- The same raw colors are reported of every file. -/
def SameColors (c c' : Config) : Prop := ∀ (level : Severity) (context : FileContext)
  (file : SourceFile), RawColorRule.check level context file c' =
    RawColorRule.check level context file c

/-- Of the classes reported of a file those are left that no pattern is found in. -/
def DropsMatched (patterns : List Pattern) (c c' : Config) : Prop := ∀ (context : FileContext)
  (file : SourceFile), ArbitraryValueRule.check context file c' =
    (ArbitraryValueRule.check context file c).filter fun v =>
      !patterns.any (·.isFound (quoted v.message))

/-- The classes reported of a file stay, those of typography with the severity that a flag gives
them; just these may be warnings. -/
def Regrades (flag : Option Bool) (c c' : Config) : Prop := ∀ (context : FileContext)
  (file : SourceFile), ArbitraryValueRule.check context file c' =
    (ArbitraryValueRule.check context file c).map (regraded flag context) ∧
  ∀ v ∈ ArbitraryValueRule.check context file c', v.severity = .warning ↔
    v.messageId = "disallowTypography" ∧ flag ≠ some false ∧ ¬context.isStory

/-- Files that match one of some globs are silenced, and what is reported of others stays. -/
def Silences (globs : PathMatcher) (c c' : Config) : Prop := ∀ (context : FileContext),
  globs.contains context.relativePath ∧ (∀ (level : Severity) (file : SourceFile),
    ArbitraryValueRule.check context file c' = [] ∧
    RawColorRule.check level context file c' = []) ∨
  ¬globs.contains context.relativePath ∧ ∀ (level : Severity) (file : SourceFile),
    ArbitraryValueRule.check context file c' = ArbitraryValueRule.check context file c ∧
    RawColorRule.check level context file c' = RawColorRule.check level context file c

variable {s : Settings} {a : Allowlist} {c c' : Config}

theorem sameColors (h : c'.exemptPaths = c.exemptPaths) : SameColors c c' := by
  intro level context file
  exact RawColorRule.check_congr (by rw [isFileExempt, isFileExempt, h])

theorem dropsMatched {new : List String} {patterns : List Pattern} (h : Parts s a c)
    (h' : Parts s { a with classPatterns := a.classPatterns ++ new } c')
    (hnew : compilePatterns new = .ok patterns) : DropsMatched patterns c c' := by
  have hclasses : c'.exemptClasses = c.exemptClasses ++ patterns :=
    Except.ok.inj (h'.classes.symm.trans (compilePatterns_append h.classes hnew))
  intro context file
  refine ArbitraryValueRule.check_exempting (fun className => patterns.any (·.isFound className))
    ?_ ?_ ?_ fun className => ?_
  · rw [isFileExempt, isFileExempt, h'.paths, h.paths]
  · rw [h'.helpers, h.helpers]
  · rw [h'.flag, h.flag]
  · rw [isClassExempt, isClassExempt, hclasses, List.any_append]

theorem regrades {flag : Option Bool} (h : Parts s a c)
    (h' : Parts { s with warnLineHeightAndTracking := flag } a c') : Regrades flag c c' := by
  intro context file
  refine ⟨ArbitraryValueRule.check_regrading ?_ ?_ ?_ h'.flag, fun v hv =>
    ArbitraryValueRule.severity_eq_warning_iff h'.flag hv⟩
  · rw [isFileExempt, isFileExempt, h'.paths, h.paths]
  · rw [h'.helpers, h.helpers]
  · exact Except.ok.inj (h'.classes.symm.trans h.classes)

theorem silences {paths new : List String} (h : Parts s a c)
    (h' : Parts s { a with paths := paths } c') (hpaths : paths.Perm (a.paths ++ new)) :
    Silences (.ofPatterns new) c c' := by
  intro context
  have hexempt : c'.isFileExempt context.relativePath =
      (c.isFileExempt context.relativePath ||
        (PathMatcher.ofPatterns new).contains context.relativePath) := by
    rw [isFileExempt, isFileExempt, h'.paths, h.paths]
    exact contains_ofPatterns hpaths _
  cases hnew : (PathMatcher.ofPatterns new).contains context.relativePath with
  | true =>
    rw [hnew, Bool.or_true] at hexempt
    refine .inl ⟨rfl, fun level file => ⟨?_, ?_⟩⟩
    · rw [ArbitraryValueRule.check, if_pos hexempt]
    · rw [RawColorRule.check, if_pos hexempt]
  | false =>
    rw [hnew, Bool.or_false] at hexempt
    refine .inr ⟨Bool.false_ne_true, fun level file => ⟨?_, RawColorRule.check_congr hexempt⟩⟩
    have hclasses : c'.exemptClasses = c.exemptClasses :=
      Except.ok.inj (h'.classes.symm.trans h.classes)
    have hall : ArbitraryValueRule.check context file c' =
        (ArbitraryValueRule.check context file c).filter fun _ => !false := by
      refine ArbitraryValueRule.check_exempting (fun _ => false) hexempt ?_ ?_ fun className => ?_
      · rw [h'.helpers, h.helpers]
      · rw [h'.flag, h.flag]
      · rw [isClassExempt, isClassExempt, hclasses, Bool.or_false]
    rw [hall]
    exact List.filter_true _

/-- More exempt patterns only drop what they match, the flag only grades typography, and more
exempt paths silence a file altogether or not at all. -/
theorem changes_confined (h : Holds s a c) :
    (∀ (new : List String) (patterns : List Pattern), compilePatterns new = .ok patterns →
      (∃ c', Holds s { a with classPatterns := a.classPatterns ++ new } c') ∧
      ∀ c', Holds s { a with classPatterns := a.classPatterns ++ new } c' →
        DropsMatched patterns c c' ∧ SameColors c c') ∧
    (∀ flag : Option Bool,
      (∃ c', Holds { s with warnLineHeightAndTracking := flag } a c') ∧
      ∀ c', Holds { s with warnLineHeightAndTracking := flag } a c' →
        Regrades flag c c' ∧ SameColors c c') ∧
    ∀ paths new : List String, paths.Perm (a.paths ++ new) →
      (∃ c', Holds s { a with paths := paths } c') ∧
      ∀ c', Holds s { a with paths := paths } c' → Silences (.ofPatterns new) c c' := by
  have hparts := h.parts
  refine ⟨fun new patterns hnew => ⟨?_, fun c' h' => ⟨?_, ?_⟩⟩,
    fun flag => ⟨?_, fun c' h' => ⟨?_, ?_⟩⟩, fun paths new hpaths => ⟨?_, fun c' h' => ?_⟩⟩
  · exact exists_holds (compilePatterns_append hparts.classes hnew)
  · exact dropsMatched hparts h'.parts hnew
  · exact sameColors (h'.parts.paths.trans hparts.paths.symm)
  · exact exists_holds hparts.classes
  · exact regrades hparts h'.parts
  · exact sameColors (h'.parts.paths.trans hparts.paths.symm)
  · exact exists_holds hparts.classes
  · exact silences hparts h'.parts hpaths

/-- One class each for a size, a layer and a line height. -/
def sized : SourceFile := .parse "<a class=\"w-[3px] z-[9] leading-[7px]\"/>"

/-- The defaults. -/
def plain : Config := contents {} {} []

/-- A request that names no files, for which the defaults are loaded. -/
def plainRequest : Request := ⟨"app", none, none⟩

/-- A pattern for the classes of layers. -/
def layerPatterns : List Pattern := (compilePatterns ["^z-"]).toOption.getD []

theorem sized_changes_confined :
    plainRequest.load .empty = .ok plain ∧ Holds {} {} plain ∧
    compilePatterns ["^z-"] = .ok layerPatterns ∧
    ["ui/*.tsx"].Perm (({} : Allowlist).paths ++ ["ui/*.tsx"]) ∧
    (ArbitraryValueRule.check ⟨"ui/a.tsx", "ui/a.tsx"⟩ sized plain).map
      (fun v => (v.messageId, v.severity)) =
        [("disallowDimension", .error), ("disallowZIndex", .error),
          ("disallowTypography", .warning)] ∧
    (∃ c', Holds {} { classPatterns := ["^z-"] } c' ∧
      DropsMatched layerPatterns plain c' ∧ SameColors plain c' ∧
      (ArbitraryValueRule.check ⟨"ui/a.tsx", "ui/a.tsx"⟩ sized c').map
        (fun v => (v.messageId, v.severity)) =
          [("disallowDimension", .error), ("disallowTypography", .warning)]) ∧
    (∃ c', Holds { warnLineHeightAndTracking := some false } {} c' ∧
      Regrades (some false) plain c' ∧ SameColors plain c' ∧
      (ArbitraryValueRule.check ⟨"ui/a.tsx", "ui/a.tsx"⟩ sized c').map
        (fun v => (v.messageId, v.severity)) =
          [("disallowDimension", .error), ("disallowZIndex", .error),
            ("disallowTypography", .error)]) ∧
    ∃ c', Holds {} { paths := ["ui/*.tsx"] } c' ∧ Silences (.ofPatterns ["ui/*.tsx"]) plain c' ∧
      ArbitraryValueRule.check ⟨"ui/a.tsx", "ui/a.tsx"⟩ sized c' = [] := by
  have hload : plainRequest.load .empty = .ok plain := rfl
  obtain ⟨s, a, hs, ha, hplain⟩ := holds_of_load hload
  obtain rfl : {} = s := Except.ok.inj hs
  obtain rfl : {} = a := Except.ok.inj ha
  have hlayers : compilePatterns ["^z-"] = .ok layerPatterns := rfl
  have hpaths : ["ui/*.tsx"].Perm (({} : Allowlist).paths ++ ["ui/*.tsx"]) := .refl _
  obtain ⟨hpatterns, hflag, hsilent⟩ := changes_confined hplain
  have hdropped : Holds {} { classPatterns := ["^z-"] }
      (contents {} { classPatterns := ["^z-"] } layerPatterns) := rfl
  have hgraded : Holds { warnLineHeightAndTracking := some false } {}
      (contents { warnLineHeightAndTracking := some false } {} []) := rfl
  have hsilenced : Holds {} { paths := ["ui/*.tsx"] }
      (contents {} { paths := ["ui/*.tsx"] } []) := rfl
  obtain ⟨hdrops, hcolors⟩ := (hpatterns _ _ hlayers).2 _ hdropped
  obtain ⟨hregrades, hcolors'⟩ := (hflag (some false)).2 _ hgraded
  exact ⟨hload, hplain, hlayers, hpaths, by decide +kernel,
    ⟨_, hdropped, hdrops, hcolors, by decide +kernel⟩,
    ⟨_, hgraded, hregrades, hcolors', by decide +kernel⟩,
    ⟨_, hsilenced, (hsilent _ _ hpaths).2 _ hsilenced, by decide +kernel⟩⟩

end Config
end TokenLint
