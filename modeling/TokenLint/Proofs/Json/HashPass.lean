import Mathlib.Data.List.Induction
import TokenLint.Proofs.Json.Spelling

/-!
# Taking out comments from `#` to the end of the line

The scan is a machine that reads one character at a time and holds blanks back until it knows
whether a comment follows them. A `#` behind a text begins a comment exactly where a blank stands
before it.
-/
namespace TokenLint.Json.Comment

open Reader

namespace HashState

/-- What a scan puts out for a character, and where it stands behind it. -/
def step : HashState → Char → List Char × HashState
  | start, c =>
    if Text.isBlank c then ([], blanks [c]) else if c == '#' then ([], comment) else ([c], text)
  | text, c => if Text.isBlank c then ([], blanks [c]) else ([c], text)
  | blanks held, c =>
    if Text.isBlank c then ([], blanks (c :: held))
    else if c == '#' then ([], comment)
    else (held.reverse ++ [c], text)
  | comment, c => if c == '\n' then ([], blanks [c]) else ([], comment)

/-- What a scan holds back. -/
def held : HashState → List Char
  | blanks cs => cs.reverse
  | _ => []

/-- What a scan has put out behind some characters, and where it stands then. -/
def advance : HashState → List Char → List Char × HashState
  | s, [] => ([], s)
  | s, c :: cs => ((s.step c).1 ++ ((s.step c).2.advance cs).1, ((s.step c).2.advance cs).2)

end HashState

open HashState

variable {s : HashState} {cs : List Char}

theorem hashFrom_nil (s : HashState) : hashFrom s [] = s.held := by
  cases s <;> rfl

theorem hashFrom_cons (s : HashState) (c : Char) (cs : List Char) :
    hashFrom s (c :: cs) = (s.step c).1 ++ hashFrom (s.step c).2 cs := by
  cases s <;> simp only [hashFrom, step] <;> split <;> (try split) <;> simp

/-- A scan of two parts goes on where it stands behind the first. -/
theorem hashFrom_append (s : HashState) (as bs : List Char) :
    hashFrom s (as ++ bs) = (s.advance as).1 ++ hashFrom (s.advance as).2 bs := by
  induction as generalizing s with
  | nil => rfl
  | cons a as ih => rw [List.cons_append, hashFrom_cons, ih, advance, List.append_assoc]

/-- A character is put out behind what was held back, or nothing is put out. -/
theorem step_cases (s : HashState) (c : Char) :
    (s.step c).1 = [] ∨ (s.step c).1 = s.held ++ [c] ∧ (s.step c).2 = .text := by
  cases s <;> simp only [step, held] <;> split <;> (try split) <;> simp

/-- What is held back was held back before, or is the character read, a blank. -/
theorem mem_held_step {c x : Char} (h : x ∈ (s.step c).2.held) :
    x ∈ s.held ∨ x = c ∧ Text.isBlank c := by
  cases s with
  | comment =>
    by_cases hc : c = '\n'
    · subst hc
      exact Or.inr ⟨by simpa [step, held] using h, by decide⟩
    · simp [step, held, hc] at h
  | start | text | blanks first =>
    by_cases hc : Text.isBlank c
    · simp_all [step, held]
    · by_cases hhash : c = '#' <;> simp_all [step, held]

/-- Of blanks and a text only blanks are held back. -/
theorem held_advance (h : ∀ x ∈ s.held, Text.isBlank x) (cs : List Char) :
    ∀ x ∈ (s.advance cs).2.held, Text.isBlank x := by
  induction cs generalizing s with
  | nil => exact h
  | cons c cs ih =>
    refine ih fun x hx => ?_
    rcases mem_held_step hx with hmem | ⟨rfl, hblank⟩
    · exact h x hmem
    · exact hblank

theorem mem_hashFrom {x : Char} (h : x ∈ hashFrom s cs) : x ∈ s.held ∨ x ∈ cs := by
  induction cs generalizing s with
  | nil => exact Or.inl (by rwa [hashFrom_nil] at h)
  | cons c cs ih =>
    rw [hashFrom_cons] at h
    rcases List.mem_append.mp h with h | h
    · rcases step_cases s c with hout | ⟨hout, -⟩
      · rw [hout] at h
        cases h
      · rw [hout] at h
        rcases List.mem_append.mp h with h | h
        · exact Or.inl h
        · exact Or.inr (by rw [List.mem_singleton.mp h]; exact List.mem_cons_self)
    · rcases ih h with h | h
      · rcases mem_held_step h with h | ⟨rfl, -⟩
        · exact Or.inl h
        · exact Or.inr List.mem_cons_self
      · exact Or.inr (List.mem_cons_of_mem c h)

@[simp] theorem step_blanks_of_blank {h : List Char} {c : Char} (hc : Text.isBlank c = true) :
    (blanks h).step c = ([], blanks (c :: h)) := by
  simp [step, hc]

@[simp] theorem step_blanks_hash (h : List Char) : (blanks h).step '#' = ([], comment) := rfl

@[simp] theorem step_blanks_of_solid {h : List Char} {c : Char} (hc : Text.isBlank c = false)
    (hne : c ≠ '#') : (blanks h).step c = (h.reverse ++ [c], .text) := by
  simp [step, hc, hne]

@[simp] theorem step_text_of_blank {c : Char} (hc : Text.isBlank c = true) :
    HashState.text.step c = ([], blanks [c]) := by
  simp [step, hc]

@[simp] theorem step_text_of_solid {c : Char} (hc : Text.isBlank c = false) :
    HashState.text.step c = ([c], .text) := by
  simp [step, hc]

@[simp] theorem step_comment_lineFeed : comment.step '\n' = ([], blanks ['\n']) := rfl

@[simp] theorem step_comment_of_ne {c : Char} (hc : c ≠ '\n') : comment.step c = ([], comment) := by
  simp [step, hc]

/-- At the start a scan stands as behind blanks that are none. -/
theorem hashFrom_start (cs : List Char) : hashFrom .start cs = hashFrom (.blanks []) cs := by
  cases cs with
  | nil => rfl
  | cons c cs => rw [hashFrom_cons, hashFrom_cons]; rfl

/-- Nothing is put out of a comment. -/
theorem advance_comment (h : '\n' ∉ cs) : comment.advance cs = ([], comment) := by
  induction cs with
  | nil => rfl
  | cons c cs ih =>
    have hc : c ≠ '\n' := fun he => h (by rw [he]; exact List.mem_cons_self)
    rw [advance, step_comment_of_ne hc, ih fun hmem => h (List.mem_cons_of_mem c hmem)]
    rfl

/-- Where no comment begins a scan stands as behind blanks. -/
theorem hashFrom_text (h : '#' ∉ cs.head?) : hashFrom .text cs = hashFrom (.blanks []) cs := by
  cases cs with
  | nil => rfl
  | cons c cs =>
    have hc : c ≠ '#' := fun he => h (by rw [he]; rfl)
    rw [hashFrom_cons, hashFrom_cons]
    simp [step, hc]

/-- What is put out begins as the text with what was held back, or with a line feed. -/
theorem head?_hashFrom (cs : List Char) :
    (∀ x ∈ (hashFrom .comment cs).head?, x = '\n') ∧
      ∀ held, ∀ x ∈ (hashFrom (.blanks held) cs).head?,
        x = '\n' ∨ x ∈ (held.reverse ++ cs).head? := by
  induction cs with
  | nil => exact ⟨by simp [hashFrom], fun held x hx => Or.inr (by simpa [hashFrom] using hx)⟩
  | cons c cs ih =>
    obtain ⟨hcomment, hblanks⟩ := ih
    refine ⟨fun x hx => ?_, fun held x hx => ?_⟩
    · rw [hashFrom_cons] at hx
      by_cases hc : c = '\n'
      · subst hc
        rcases hblanks ['\n'] x (by simpa using hx) with h | h
        · exact h
        · simpa [eq_comm] using h
      · exact hcomment x (by simpa [hc] using hx)
    · rw [hashFrom_cons] at hx
      by_cases hc : Text.isBlank c = true
      · simpa using hblanks (c :: held) x (by simpa [hc] using hx)
      · rw [Bool.not_eq_true] at hc
        by_cases hhash : c = '#'
        · subst hhash
          exact Or.inl (hcomment x (by simpa using hx))
        · refine Or.inr ?_
          rw [step_blanks_of_solid hc hhash] at hx
          cases hrev : held.reverse <;> simp_all

theorem head?_hashFrom_text {x : Char} (h : x ∈ (hashFrom .text cs).head?) :
    x = '\n' ∨ x ∈ cs.head? := by
  cases cs with
  | nil => cases h
  | cons c cs =>
    rw [hashFrom_cons] at h
    by_cases hc : Text.isBlank c = true
    · exact (head?_hashFrom cs).2 [c] x (by simpa [hc] using h)
    · exact Or.inr (by simpa [hc] using h)

/-- What was held back first is put out with the rest, or dropped with it. -/
theorem hashFrom_blanks_append (held first cs : List Char) :
    hashFrom (.blanks (held ++ first)) cs = first.reverse ++ hashFrom (.blanks held) cs ∨
      hashFrom (.blanks (held ++ first)) cs = hashFrom (.blanks held) cs := by
  induction cs generalizing held with
  | nil => exact Or.inl (by simp [hashFrom])
  | cons c cs ih =>
    rw [hashFrom_cons, hashFrom_cons]
    by_cases hc : Text.isBlank c = true
    · simpa [hc] using ih (c :: held)
    · rw [Bool.not_eq_true] at hc
      by_cases hhash : c = '#'
      · subst hhash
        exact Or.inr rfl
      · exact Or.inl (by simp [hc, hhash])

/-- At the end of a line, what was held back is put out or dropped, and the scan goes on as behind
blanks. -/
theorem hashFrom_lineEnd (s : HashState) (h : ∀ x ∈ cs.head?, x = '\n') :
    hashFrom s cs = s.held ++ hashFrom (.blanks []) cs ∨
      hashFrom s cs = hashFrom (.blanks []) cs := by
  cases cs with
  | nil => exact Or.inl (by rw [hashFrom_nil, hashFrom_nil]; simp [held])
  | cons c cs =>
    obtain rfl := h c rfl
    cases s with
    | blanks first =>
      have hstep : ∀ rest, hashFrom (.blanks rest) ('\n' :: cs) =
          hashFrom (.blanks ('\n' :: rest)) cs := fun _ => rfl
      rw [hstep, hstep]
      exact hashFrom_blanks_append ['\n'] first cs
    | start | text | comment => exact Or.inr rfl

/-- Through a text without a `#`, up to a character that is no blank, all is put out. -/
theorem hashFrom_solid {s : HashState} (hs : s = .text ∨ ∃ h, s = .blanks h) {xs : List Char}
    (hxs : '#' ∉ xs) {x : Char} (hx : Text.isBlank x = false) (hne : x ≠ '#') (cs : List Char) :
    hashFrom s (xs ++ x :: cs) = s.held ++ (xs ++ x :: hashFrom .text cs) := by
  induction xs generalizing s with
  | nil =>
    rcases hs with rfl | ⟨h, rfl⟩ <;> simp [hashFrom_cons, held, hx, hne]
  | cons c xs ih =>
    have hc : c ≠ '#' := fun he => hxs (by rw [he]; exact List.mem_cons_self)
    have hxs' : '#' ∉ xs := fun hmem => hxs (List.mem_cons_of_mem c hmem)
    rw [List.cons_append, hashFrom_cons]
    by_cases hblank : Text.isBlank c = true
    · rcases hs with rfl | ⟨h, rfl⟩
      · simp [hblank, held, ih (Or.inr ⟨[c], rfl⟩) hxs']
      · simp [hblank, held, ih (Or.inr ⟨c :: h, rfl⟩) hxs']
    · rw [Bool.not_eq_true] at hblank
      rcases hs with rfl | ⟨h, rfl⟩ <;> simp [hblank, hc, held, ih (Or.inl rfl) hxs']

/-- All that is put out for a text: what was put out up to its end, and what is held back there. -/
theorem hashFrom_eq_advance (s : HashState) (cs : List Char) :
    hashFrom s cs = (s.advance cs).1 ++ (s.advance cs).2.held := by
  rw [← hashFrom_nil, ← hashFrom_append, List.append_nil]

theorem advance_append (s : HashState) (as bs : List Char) :
    (s.advance (as ++ bs)).2 = ((s.advance as).2.advance bs).2 := by
  induction as generalizing s with
  | nil => rfl
  | cons a as ih => exact ih (s.step a).2

/-- Some blank has a `#` behind it that no line feed follows. -/
def OpensHash (cs : List Char) : Prop :=
  ∃ as b ds, cs = as ++ b :: '#' :: ds ∧ Text.isBlank b ∧ '\n' ∉ ds

/-- What a scan that began within a text has read where it stands so. -/
def HashState.Behind (cs : List Char) : HashState → Prop
  | start => False
  | text => True
  | blanks _ => ∃ as b, cs = as ++ [b] ∧ Text.isBlank b
  | comment => OpensHash cs

theorem HashState.Behind.step (h : s.Behind cs) (c : Char) : (s.step c).2.Behind (cs ++ [c]) := by
  by_cases hc : Text.isBlank c = true
  · cases s with
    | start => exact h.elim
    | text => exact (step_text_of_blank hc).symm ▸ ⟨cs, c, rfl, hc⟩
    | blanks held => exact (step_blanks_of_blank hc).symm ▸ ⟨cs, c, rfl, hc⟩
    | comment =>
      by_cases hfeed : c = '\n'
      · subst hfeed
        exact ⟨cs, '\n', rfl, hc⟩
      · obtain ⟨as, b, ds, rfl, hb, hds⟩ := h
        rw [step_comment_of_ne hfeed]
        exact ⟨as, b, ds ++ [c], by simp, hb, by simpa [eq_comm] using ⟨hds, hfeed⟩⟩
  · rw [Bool.not_eq_true] at hc
    cases s with
    | start => exact h.elim
    | text => exact (step_text_of_solid hc).symm ▸ trivial
    | blanks held =>
      by_cases hhash : c = '#'
      · obtain ⟨as, b, rfl, hb⟩ := h
        subst hhash
        exact ⟨as, b, [], by simp, hb, List.not_mem_nil⟩
      · exact (step_blanks_of_solid hc hhash).symm ▸ trivial
    | comment =>
      have hfeed : c ≠ '\n' := by
        rintro rfl
        cases hc
      obtain ⟨as, b, ds, rfl, hb, hds⟩ := h
      rw [step_comment_of_ne hfeed]
      exact ⟨as, b, ds ++ [c], by simp, hb, by simpa [eq_comm] using ⟨hds, hfeed⟩⟩

theorem behind_advance (cs : List Char) : (HashState.text.advance cs).2.Behind cs := by
  induction cs using List.reverseRecOn with
  | nil => trivial
  | append_singleton cs c ih =>
    rw [advance_append]
    exact ih.step c

/-- A text ends inside of a comment exactly when one begins in it on its last line. -/
theorem advance_eq_comment_iff : (HashState.text.advance cs).2 = comment ↔ OpensHash cs := by
  constructor
  · intro h
    have hbehind := behind_advance cs
    rwa [h] at hbehind
  · rintro ⟨as, b, ds, rfl, hb, hds⟩
    have hhash : Text.isBlank '#' = false := by decide
    have hopened : (((HashState.text.advance as).2.step b).2.step '#').2 = comment := by
      cases (HashState.text.advance as).2 with
      | start | text | blanks held => simp [step, hb, hhash]
      | comment => by_cases hfeed : b = '\n' <;> simp [step, hfeed, hhash]
    rw [advance_append, advance, advance, hopened, advance_comment hds]

/-- A text that ends outside of a comment stands apart from what comes behind it. -/
theorem hashFrom_text_append (h : ¬OpensHash cs) {c : Char} (hc : Text.isBlank c = false)
    (hne : c ≠ '#') (ds : List Char) :
    hashFrom .text (cs ++ c :: ds) = hashFrom .text cs ++ c :: hashFrom .text ds := by
  have hstate : (HashState.text.advance cs).2 = .text ∨
      ∃ held, (HashState.text.advance cs).2 = .blanks held := by
    have hbehind := behind_advance cs
    cases hs : (HashState.text.advance cs).2 with
    | start => exact absurd hbehind (by rw [hs]; exact id)
    | text => exact Or.inl rfl
    | blanks held => exact Or.inr ⟨held, rfl⟩
    | comment => exact absurd (advance_eq_comment_iff.mp hs) h
  have hnone : '#' ∉ ([] : List Char) := List.not_mem_nil
  have hnext := hashFrom_solid hstate hnone hc hne ds
  rw [List.nil_append, List.nil_append] at hnext
  rw [hashFrom_append, hnext, hashFrom_eq_advance .text cs, List.append_assoc]

end TokenLint.Json.Comment
