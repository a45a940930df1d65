import Mathlib.Data.List.Basic
import TokenLint.Json.Reader

/-!
# Spellings of a JSON text

A text spells a list of tokens when it holds them in order, with space between them where there
may be space, and comments among the space. One list of tokens has many spellings: with and
without comments, on one line or on many.
-/
namespace TokenLint.Json

open Reader

/-- Brackets, comma and colon. -/
def marks : List Char := ['\x7b', '\x7d', '[', ']', ',', ':']

theorem mem_marks {c : Char} :
    c ∈ marks ↔ c = '\x7b' ∨ c = '\x7d' ∨ c = '[' ∨ c = ']' ∨ c = ',' ∨ c = ':' := by
  simp [marks]

/-- Characters of numbers and of the words `true`, `false` and `null`. -/
def isWordChar (c : Char) : Bool := c.isAlphanum || c == '+' || c == '-' || c == '.'

/-- Whether a text may stand between two quotes: each quote and each backslash in it is escaped
by a backslash. -/
def isBody : List Char → Bool
  | [] => true
  | '"' :: _ => false
  | ['\\'] => false
  | '\\' :: _ :: cs => isBody cs
  | _ :: cs => isBody cs

/-- Nothing in the text begins or ends a comment. -/
structure MarkFree (cs : List Char) : Prop where
  hash : '#' ∉ cs
  blockOpen : Text.contains cs ['/', '*'] = false
  blockClose : Text.contains cs ['*', '/'] = false
  slash : Text.contains cs ['/', '/'] = false

/-- A part of a JSON text that cannot be broken up. -/
inductive Token where
  | mark (c : Char) (known : c ∈ marks)
  | word (c : Char) (cs : List Char) (plain : ∀ x ∈ c :: cs, isWordChar x)
  /-- A string or a key that holds no mark of a comment. -/
  | string (body : List Char) (closed : isBody body) (free : MarkFree body)

namespace Token

def text : Token → List Char
  | mark c _ => [c]
  | word c cs _ => c :: cs
  | string body _ _ => '"' :: (body ++ ['"'])

/-- Whether a character may come right behind a token: none that begins a comment, and none that
would make a word longer. -/
def Borders : Token → Char → Prop
  | word .., c => c ≠ '/' ∧ c ≠ '#' ∧ isWordChar c = false
  | _, c => c ≠ '/' ∧ c ≠ '#'

end Token

/-- A comment of one of the three kinds. -/
inductive Comment where
  /-- From `#` to the end of the line. -/
  | hash (body : List Char) (line : '\n' ∉ body)
  /-- From `//` to the end of the line. -/
  | slash (body : List Char) (line : '\n' ∉ body)
  /-- From `/*` to `*/`. -/
  | block (body : List Char) (closed : Text.contains body ['*', '/'] = false)

namespace Comment

def text : Comment → List Char
  | hash body _ => '#' :: body
  | slash body _ => '/' :: '/' :: body
  | block body _ => '/' :: '*' :: (body ++ ['*', '/'])

/-- Whether a character may come right behind a comment: behind one to the end of the line the
line feed, behind another any space. -/
def Borders : Comment → Char → Prop
  | block .., c => isSpace c
  | _, c => c = '\n'

end Comment

/-- A text spells some tokens, with such comments between them as are admitted. Next to a comment
there is space, or an end of the text. -/
inductive Spells (admits : Comment → Prop) : List Token → List Char → Prop
  | done : Spells admits [] []
  | space {c : Char} {ts : List Token} {cs : List Char} (blank : isSpace c)
      (rest : Spells admits ts cs) : Spells admits ts (c :: cs)
  | comment {c : Comment} {ts : List Token} {cs : List Char} (admitted : admits c)
      (border : ∀ x ∈ cs.head?, c.Borders x) (rest : Spells admits ts cs) :
      Spells admits ts (c.text ++ cs)
  | token {t : Token} {ts : List Token} {cs : List Char}
      (border : ∀ x ∈ cs.head?, t.Borders x) (rest : Spells admits ts cs) :
      Spells admits (t :: ts) (t.text ++ cs)

/-- The spellings without a comment. -/
abbrev Plain : List Token → List Char → Prop := Spells fun _ => False

variable {admits : Comment → Prop} {ts : List Token} {cs : List Char}

theorem Spells.mono {admits' : Comment → Prop} (hle : ∀ c, admits c → admits' c)
    (h : Spells admits ts cs) : Spells admits' ts cs := by
  induction h with
  | done => exact .done
  | space blank rest ih => exact .space blank ih
  | comment admitted border rest ih => exact .comment (hle _ admitted) border ih
  | token border rest ih => exact .token border ih

/-- Space in front changes nothing. -/
theorem Spells.spaces {held : List Char} (hheld : ∀ c ∈ held, isSpace c)
    (h : Spells admits ts cs) : Spells admits ts (held ++ cs) := by
  induction held with
  | nil => exact h
  | cons c held ih =>
    exact .space (hheld c List.mem_cons_self) (ih fun d hd => hheld d (List.mem_cons_of_mem c hd))

theorem isBlank_of_isSpace {c : Char} (h : isSpace c) : Text.isBlank c := by
  simp only [isSpace, Bool.or_eq_true, beq_iff_eq] at h
  rcases h with ((rfl | rfl) | rfl) | rfl <;> decide

theorem not_isBlank_of_isWordChar {c : Char} (h : isWordChar c) : Text.isBlank c = false := by
  delta isWordChar Char.isAlphanum Char.isAlpha Char.isUpper Char.isLower Char.isDigit at h
  simp only [Bool.or_eq_true, Bool.and_eq_true, decide_eq_true_eq, beq_iff_eq] at h
  rcases h with ((h | rfl) | rfl) | rfl
  · have hn : c.toNat = c.val.toNat := rfl
    simp only [ge_iff_le, UInt32.le_iff_toNat_le] at h
    rw [← hn] at h
    simp at h
    simp [Text.isBlank]
    omega
  all_goals decide

/-- Characters that a token may end in. -/
def isFinal (c : Char) : Bool := isWordChar c || c == '"' || marks.contains c

theorem not_isBlank_of_isFinal {c : Char} (h : isFinal c) : Text.isBlank c = false := by
  simp only [isFinal, Bool.or_eq_true, beq_iff_eq] at h
  rcases h with (h | rfl) | h
  · exact not_isBlank_of_isWordChar h
  · decide
  · obtain rfl | rfl | rfl | rfl | rfl | rfl := mem_marks.mp (by simpa using h) <;> decide

theorem ne_of_isFinal {c d : Char} (h : isFinal c) (hd : isFinal d = false) : c ≠ d := by
  rintro rfl
  rw [h] at hd
  cases hd

/-- A text begins with a pair when it begins with the first character and the second comes
next. -/
theorem startsWith_pair {c x y : Char} {cs : List Char} :
    Text.startsWith (c :: cs) [x, y] = true ↔ c = x ∧ y ∈ cs.head? := by
  cases cs with
  | nil => simp [Text.startsWith]
  | cons d cs => simp [Text.startsWith]

theorem contains_pair_cons {c x y : Char} {cs : List Char} :
    Text.contains (c :: cs) [x, y] = false ↔
      (c = x → y ∉ cs.head?) ∧ Text.contains cs [x, y] = false := by
  rw [Text.contains, Bool.or_eq_false_iff, ← Bool.not_eq_true, startsWith_pair, not_and]

/-- Text without the first character of a pair in front of another holds no more pairs. -/
theorem contains_pair_append {x y : Char} {cs : List Char} (h : x ∉ cs) (ds : List Char) :
    Text.contains (cs ++ ds) [x, y] = Text.contains ds [x, y] := by
  induction cs with
  | nil => rfl
  | cons c cs ih =>
    have hne : c ≠ x := fun he => h (by rw [he]; exact List.mem_cons_self)
    rw [List.cons_append, Text.contains, ih fun hmem => h (List.mem_cons_of_mem c hmem)]
    simp [Text.startsWith, hne]

/-- Two texts without a pair make none where they meet, if the second does not begin with the end
of one. -/
theorem contains_append_pair {x y : Char} {cs ds : List Char}
    (hcs : Text.contains cs [x, y] = false) (hds : Text.contains ds [x, y] = false)
    (hhead : y ∉ ds.head?) :
    Text.contains (cs ++ ds) [x, y] = false := by
  induction cs with
  | nil => exact hds
  | cons c cs ih =>
    rw [contains_pair_cons] at hcs
    rw [List.cons_append, contains_pair_cons]
    refine ⟨fun hc hmem => ?_, ih hcs.2⟩
    cases cs with
    | nil => exact hhead hmem
    | cons d cs => exact hcs.1 hc hmem

namespace Token

theorem Borders.ne_slash {t : Token} {c : Char} (h : t.Borders c) : c ≠ '/' := by
  cases t <;> exact h.1

theorem Borders.ne_hash {t : Token} {c : Char} (h : t.Borders c) : c ≠ '#' := by
  cases t with
  | word => exact h.2.1
  | mark | string => exact h.2

/-- A token begins with a character that is neither space nor part of a comment's mark. -/
theorem exists_text_eq_cons (t : Token) :
    ∃ x xs, t.text = x :: xs ∧ isSpace x = false ∧ x ≠ '/' ∧ x ≠ '#' := by
  cases t with
  | mark c known =>
    refine ⟨c, [], rfl, ?_⟩
    obtain rfl | rfl | rfl | rfl | rfl | rfl := mem_marks.mp known <;> decide
  | word c cs plain =>
    have hc := plain c List.mem_cons_self
    refine ⟨c, cs, rfl, ?_, ?_, ?_⟩
    · rw [← Bool.not_eq_true]
      intro hspace
      exact absurd (isBlank_of_isSpace hspace) (by rw [not_isBlank_of_isWordChar hc]; decide)
    · rintro rfl
      cases hc
    · rintro rfl
      cases hc
  | string body closed free => exact ⟨'"', body ++ ['"'], rfl, rfl, by decide, by decide⟩

theorem borders_lineFeed (t : Token) : t.Borders '\n' := by
  cases t with
  | word => exact ⟨by decide, by decide, by decide⟩
  | mark | string => exact ⟨by decide, by decide⟩

/-- Every token ends in a character that is neither space nor part of a comment's mark, and holds
no such mark. -/
theorem exists_text_eq (t : Token) : ∃ xs x, t.text = xs ++ [x] ∧ isFinal x ∧ '#' ∉ xs ∧
    Text.contains xs ['/', '*'] = false ∧ Text.contains xs ['/', '/'] = false := by
  cases t with
  | mark c known => exact ⟨[], c, rfl, by simp [isFinal, known], by simp, rfl, rfl⟩
  | word c cs plain =>
    have hsplit : c :: cs = (c :: cs).dropLast ++ [(c :: cs).getLast (by simp)] :=
      (List.dropLast_concat_getLast (by simp)).symm
    have hplain : ∀ d, isWordChar d = false → d ∉ (c :: cs).dropLast := by
      intro d hd hmem
      rw [plain d (List.dropLast_subset _ hmem)] at hd
      cases hd
    have hfinal : isFinal ((c :: cs).getLast (by simp)) := by
      have hlast := plain _ (List.getLast_mem (l := c :: cs) (by simp))
      simp [isFinal, hlast]
    have hpair : ∀ y, Text.contains (c :: cs).dropLast ['/', y] = false := fun y => by
      rw [← List.append_nil (List.dropLast _), contains_pair_append (hplain '/' rfl)]
      rfl
    exact ⟨_, _, hsplit, hfinal, hplain '#' rfl, hpair '*', hpair '/'⟩
  | string body closed free =>
    refine ⟨'"' :: body, '"', rfl, rfl, ?_, ?_, ?_⟩
    · simpa using free.hash
    · simpa [Text.contains, Text.startsWith] using free.blockOpen
    · simpa [Text.contains, Text.startsWith] using free.slash

end Token
end TokenLint.Json
