import TokenLint.Proofs.Json.Spacing
import TokenLint.Proofs.Json.Strip

/-!
# What comments do to a value

Comments that each pass of the stripping sees for what they are never matter. Any other comment
does damage, and some do it without a sign of it.
-/
namespace TokenLint.Json

open Reader Comment

/-- What comes behind the comment in a sample: an item, an empty comment and another item. -/
def sampleRest : List Char := ['\n', '1', ',', ' ', '/', '*', '*', '/', ' ', '2', ']']

/-- A list of two items, with a comment in front of the first and an empty one between them. -/
def sample (c : Comment) : List Char := '[' :: ' ' :: (c.text ++ sampleRest)

/-- The sample without the comments. -/
def samplePlain : List Char := ['[', '1', ',', '2', ']']

def sampleTokens : List Token :=
  [.mark '[' (by decide), .word '1' [] (List.all_eq_true.mp rfl), .mark ',' (by decide),
    .word '2' [] (List.all_eq_true.mp rfl), .mark ']' (by decide)]

theorem plain_samplePlain : Plain sampleTokens samplePlain := by
  unfold sampleTokens samplePlain
  refine .token ?_ (.token ?_ (.token ?_ (.token ?_ (.token ?_ .done))))
  all_goals simp [Token.Borders, isWordChar]

theorem spells_sample {admits : Comment → Prop} {c : Comment} (hc : admits c)
    (hempty : admits (.block [] rfl)) : Spells admits sampleTokens (sample c) := by
  have hrest : Spells admits sampleTokens.tail sampleRest := by
    unfold sampleTokens sampleRest
    refine .space (by decide) (.token ?_ (.token ?_ (.space (by decide) (.comment hempty ?_
      (.space (by decide) (.token ?_ (.token ?_ .done)))))))
    all_goals simp [Token.Borders, Comment.Borders, isWordChar, isSpace]
  unfold sampleTokens sample
  refine .token ?_ (.space (by decide) (.comment hc ?_ hrest))
  · simp [Token.Borders]
  · cases c <;> simp [Comment.Borders, sampleRest, isSpace]

theorem parse_samplePlain :
    parse (String.ofList samplePlain) = .ok (.array [.natural 1, .natural 2]) := rfl

/-- A slash is no value. -/
theorem parse_slash (cs : List Char) (v : Value) :
    parse (String.ofList ('[' :: ' ' :: '/' :: cs)) ≠ .ok v := by
  have hfault : document ⟨'[' :: ' ' :: '/' :: cs, 0⟩ = .error ⟨.missingValue, 3⟩ := rfl
  simp [parse, hfault]

/-- A list that ends behind its bracket is none. -/
theorem parse_unfinished (v : Value) : parse (String.ofList ['[', ' ']) ≠ .ok v := by
  have hfault : document ⟨['[', ' '], 0⟩ = .error ⟨.unfinishedList, 2⟩ := rfl
  simp [parse, hfault]

/-- The line feed behind the comment keeps all that the first pass held back. -/
theorem hashFrom_sampleRest (s : HashState) : hashFrom s sampleRest = s.held ++ sampleRest := by
  cases s with
  | start | text | comment => rfl
  | blanks held =>
    simp [sampleRest, hashFrom_cons, HashState.step, Text.isBlank, HashState.held]
    rfl

/-- A slash that is left in front of the first item, or that takes the whole line with it, is
no value. -/
theorem parse_slash_left {cs : List Char} (hcs : '/' ∈ cs.head? → '\n' ∉ cs) (v : Value) :
    parse (String.ofList (withoutSlash ('[' :: ' ' :: '/' :: cs))) ≠ .ok v := by
  have hstart : withoutSlash ('[' :: ' ' :: '/' :: cs) =
      '[' :: ' ' :: slashFrom false (some ' ') ('/' :: cs) := rfl
  rw [hstart, slashFrom]
  by_cases hhead : cs.head? = some '/'
  · have hgone : slashFrom true (some ' ') cs = [] := by
      rw [← List.append_nil cs]
      exact slashFrom_line (hcs hhead) (by simp) (some ' ')
    have hopens : opensBehind (some ' ') := rfl
    simpa [hhead, hopens, hgone] using parse_unfinished v
  · simpa [hhead] using parse_slash (slashFrom false (some '/') cs) v

/-- A comment to the end of the line that the second pass does not leave as one does damage. -/
theorem parse_sample_slash {body : List Char} (hline : '\n' ∉ body)
    (h : ¬Contained (slash body hline)) (v : Value) :
    parseWithComments (String.ofList (sample (slash body hline))) ≠ .ok v := by
  have hhash : withoutHash (sample (slash body hline)) =
      '[' :: ' ' :: '/' :: '/' :: (hashFrom .text body ++ sampleRest) := by
    rw [hashFrom_eq_advance .text body, List.append_assoc, ← hashFrom_sampleRest, ← hashFrom_append]
    simp [withoutHash, sample, text, hashFrom_cons, HashState.step, Text.isBlank]
  have hstays : ¬StaysLine ('/' :: '/' :: hashFrom .text body) := h
  have hline : '\n' ∉ hashFrom .text body := fun hmem =>
    hline ((mem_hashFrom hmem).resolve_left List.not_mem_nil)
  generalize hashFrom .text body = left at hhash hstays hline
  have hslash : ∀ cs, blockFrom none ('/' :: '/' :: cs) = '/' :: blockFrom none ('/' :: cs) :=
    fun cs => blockFrom_none_cons (by simp)
  have hahead : NoMarkAhead sampleRest := by simp [NoMarkAhead, sampleRest]
  have hblock : withoutBlock ('[' :: ' ' :: '/' :: '/' :: (left ++ sampleRest)) =
      '[' :: ' ' :: '/' :: blockFrom none (('/' :: left) ++ sampleRest) := by
    rw [withoutBlock, blockFrom_none_cons (by simp), blockFrom_none_cons (by simp), hslash]
    rfl
  rw [parseWithComments, strip, String.toList_ofList, hhash, hblock]
  refine parse_slash_left (fun hhead => ?_) v
  cases hopen : endsInBlock false ('/' :: left) with
  | true =>
    -- The block that is open runs up to the end of the empty comment, over the line feed.
    obtain ⟨out, held, hout, hfrom⟩ := exists_blockFrom_append (o := none) hopen
    have hbody : Text.contains ['\n', '1', ',', ' ', '/', '*'] ['*', '/'] = false := rfl
    have hrest : blockFrom (some held) sampleRest = [' ', '2', ']'] :=
      blockFrom_block hbody held [' ', '2', ']']
    rw [hfrom _ hahead, hrest]
    intro hmem
    rcases List.mem_append.mp hmem with hmem | hmem
    · have hleft := hout _ hmem
      simp [hline] at hleft
    · simp at hmem
  | false =>
    -- No block is open, so it is the second slash that a block has taken away.
    have hclosed : endsInBlock false ('/' :: '/' :: left) = false := by
      rw [endsInBlock_false_cons (by simp), hopen]
    have hnone : '/' ∉ (blockFrom none ('/' :: left)).head? := fun hmem =>
      hstays ⟨hclosed, by rw [withoutBlock, hslash]; exact startsWith_pair.mpr ⟨rfl, hmem⟩⟩
    rw [blockFrom_append (o := none) hahead hopen] at hhead
    cases hleft : blockFrom none ('/' :: left) with
    | nil =>
      rw [hleft] at hhead
      cases hhead
    | cons c cs =>
      rw [hleft] at hhead hnone
      exact absurd hhead hnone

/-- A comment with two ends whose body hides the first of them takes the next item with it. -/
theorem parse_sample_block {body : List Char} (hbody : Text.contains body ['*', '/'] = false)
    (h : ¬Contained (block body hbody)) :
    parseWithComments (String.ofList (sample (block body hbody))) = .ok (.array [.natural 2]) := by
  have hopens : (HashState.text.advance body).2 = .comment :=
    advance_eq_comment_iff.mpr (not_not.mp h)
  have hhash : withoutHash (sample (block body hbody)) =
      '[' :: ' ' :: '/' :: '*' :: (hashFrom .text body ++ sampleRest) := by
    have hbehind : hashFrom .comment ('*' :: '/' :: sampleRest) = sampleRest := rfl
    have hleft : hashFrom .text (body ++ '*' :: '/' :: sampleRest) =
        hashFrom .text body ++ sampleRest := by
      rw [hashFrom_append, hopens, hbehind, hashFrom_eq_advance .text body, hopens]
      simp [HashState.held]
    rw [← hleft]
    simp [withoutHash, sample, text, hashFrom_cons, HashState.step, Text.isBlank]
  have hclosed : Text.contains (hashFrom .text body ++ ['\n', '1', ',', ' ', '/', '*'])
      ['*', '/'] = false :=
    contains_append_pair (contains_hashFrom (by simp [HashState.held]) hbody) rfl (by simp)
  have hblock : withoutBlock ('[' :: ' ' :: '/' :: '*' :: (hashFrom .text body ++ sampleRest)) =
      ['[', ' ', ' ', '2', ']'] := by
    have hrest := blockFrom_block hclosed ['*', '/'] [' ', '2', ']']
    rw [List.append_assoc] at hrest
    rw [withoutBlock, blockFrom_none_cons (by simp), blockFrom_none_cons (by simp), blockFrom]
    exact congrArg ('[' :: ' ' :: ·) hrest
  rw [parseWithComments, strip, String.toList_ofList, hhash, hblock]
  rfl

/-- Any number of comments leaves the value of a text as it is, and a text without a value without
one, exactly when each pass sees each of the comments that may be there for what it is. -/
theorem parseWithComments_eq_ok_iff {admits : Comment → Prop} (hempty : admits (.block [] rfl)) :
    (∀ (ts : List Token) (text plain : String), Spells admits ts text.toList →
      Plain ts plain.toList → ∀ v, parseWithComments text = .ok v ↔ parse plain = .ok v) ↔
    ∀ c, admits c → Contained c := by
  constructor
  · intro hread c hc
    by_contra hnot
    have htext : Spells admits sampleTokens (String.ofList (sample c)).toList := by
      rw [String.toList_ofList]
      exact spells_sample hc hempty
    have hplain : Plain sampleTokens (String.ofList samplePlain).toList := by
      rw [String.toList_ofList]
      exact plain_samplePlain
    have hsample := (hread _ _ _ htext hplain _).mpr parse_samplePlain
    cases c with
    | hash => exact hnot trivial
    | slash body line => exact parse_sample_slash line hnot _ hsample
    | block body closed =>
      rw [parse_sample_block closed hnot] at hsample
      cases hsample
  · intro hall ts text plain htext hplain v
    have hread := parse_eq_ok_congr (plain_strip (htext.mono hall)) hplain v
    rwa [String.ofList_toList, String.ofList_toList] at hread

/-! ### Settings with comments -/

def settingsTokens : List Token :=
  let string (s : String) (h : isBody s.toList ∧ MarkFree s.toList) : Token :=
    .string s.toList h.1 h.2
  [.mark '\x7b' (by decide),
    string "warnLineHeightAndTracking" ⟨by decide, by decide, by decide, by decide, by decide⟩,
    .mark ':' (by decide), .word 'f' ['a', 'l', 's', 'e'] (List.all_eq_true.mp rfl),
    .mark ',' (by decide),
    string "classMergeHelpers" ⟨by decide, by decide, by decide, by decide, by decide⟩,
    .mark ':' (by decide), .mark '[' (by decide),
    string "cx" ⟨by decide, by decide, by decide, by decide, by decide⟩,
    .mark ']' (by decide), .mark '\x7d' (by decide)]

def settingsPlain : String :=
  "\x7b \"warnLineHeightAndTracking\": false, \"classMergeHelpers\": [\"cx\"] \x7d"

def settingsValue : Value :=
  .object [("warnLineHeightAndTracking", .bool false), ("classMergeHelpers", .array [.string "cx"])]

theorem plain_settingsPlain : Plain settingsTokens settingsPlain.toList := by
  simp only [settingsPlain, String.reduceToList]
  refine .token ?_ (.space (by decide) (.token ?_ (.token ?_ (.space (by decide) (.token ?_
    (.token ?_ (.space (by decide) (.token ?_ (.token ?_ (.space (by decide) (.token ?_ (.token ?_
    (.token ?_ (.space (by decide) (.token ?_ .done)))))))))))))))
  all_goals simp [Token.Borders, isWordChar]

/-- Marks of comments stand in the bodies of all three comments. -/
def settingsAnnotated : String :=
  "\x7b # not /* a block\n\"warnLineHeightAndTracking\": false, // or #2 /*\n\"classMergeHelpers\": /* see // there */ [\"cx\"] \x7d"

theorem spells_settingsAnnotated : Spells Contained settingsTokens settingsAnnotated.toList := by
  have hslash : Contained (.slash " or #2 /*".toList (by decide)) := ⟨rfl, rfl⟩
  have hblock : Contained (.block " see // there ".toList rfl) := fun hopens => by
    cases advance_eq_comment_iff.mpr hopens
  simp only [settingsAnnotated, String.reduceToList]
  refine .token ?_ (.space (by decide) (.comment (c := .hash " not /* a block".toList (by decide))
    trivial ?_ (.space (by decide) (.token ?_ (.token ?_ (.space (by decide) (.token ?_
    (.token ?_ (.space (by decide) (.comment hslash ?_ (.space (by decide) (.token ?_ (.token ?_
    (.space (by decide) (.comment hblock ?_ (.space (by decide) (.token ?_ (.token ?_ (.token ?_
    (.space (by decide) (.token ?_ .done)))))))))))))))))))))
  all_goals simp [Token.Borders, Comment.Borders, isWordChar, isSpace]

theorem settingsAnnotated_read : Contained (.block [] rfl) ∧
    parseWithComments settingsAnnotated = .ok settingsValue ∧
    ¬∀ (ts : List Token) (text plain : String), Spells (fun _ => True) ts text.toList →
      Plain ts plain.toList → ∀ v, parseWithComments text = .ok v ↔ parse plain = .ok v := by
  have hempty : Contained (.block [] rfl) := fun hopens => by
    cases advance_eq_comment_iff.mpr hopens
  have hnumber : ¬Contained (.block " #1 ".toList rfl) := not_not.mpr
    ⟨[], ' ', ['1', ' '], rfl, rfl, by decide⟩
  refine ⟨hempty, ?_, fun hall => hnumber ?_⟩
  · have hread := (parseWithComments_eq_ok_iff hempty).mpr fun _ => id
    exact (hread _ _ _ spells_settingsAnnotated plain_settingsPlain _).mpr rfl
  · exact (parseWithComments_eq_ok_iff trivial).mp hall _ trivial

/-- A number sign in the first comment hides the end of it from the second pass. -/
def settingsNumbered : String :=
  "\x7b /* rule #1 is strict */\n\"warnLineHeightAndTracking\": false, /* see above */\n\"classMergeHelpers\": [\"cx\"] \x7d"

theorem spells_settingsNumbered :
    Spells (fun _ => True) settingsTokens settingsNumbered.toList := by
  simp only [settingsNumbered, String.reduceToList]
  refine .token ?_ (.space (by decide) (.comment (c := .block " rule #1 is strict ".toList rfl)
    trivial ?_ (.space (by decide) (.token ?_ (.token ?_ (.space (by decide) (.token ?_ (.token ?_
    (.space (by decide) (.comment (c := .block " see above ".toList rfl) trivial ?_
    (.space (by decide) (.token ?_ (.token ?_ (.space (by decide) (.token ?_ (.token ?_ (.token ?_
    (.space (by decide) (.token ?_ .done)))))))))))))))))))
  all_goals simp [Token.Borders, Comment.Borders, isWordChar, isSpace]

set_option maxRecDepth 2000 in
/-- One of two settings is lost to a comment, and no fault is reported. -/
theorem settingsNumbered_loses_setting :
    Spells (fun _ => True) settingsTokens settingsNumbered.toList ∧
      Plain settingsTokens settingsPlain.toList ∧ parse settingsPlain = .ok settingsValue ∧
      settingsValue.get? "warnLineHeightAndTracking" = some (.bool false) ∧
      ∃ v, parseWithComments settingsNumbered = .ok v ∧
        v.get? "warnLineHeightAndTracking" = none :=
  ⟨spells_settingsNumbered, plain_settingsPlain, rfl, rfl,
    .object [("classMergeHelpers", .array [.string "cx"])], rfl, rfl⟩

end TokenLint.Json
