import Mathlib.Data.List.Chain
import TokenLint.Proofs.Json.BlockPass
import TokenLint.Proofs.Json.HashPass

/-!
# What stripping leaves of a text with comments
-/
namespace TokenLint.Json

open Reader

namespace Comment

/-- What `//` begins is still a comment to the end of the line for the last pass: no `/*` on the
line is left open, and none takes the two slashes apart. -/
structure StaysLine (line : List Char) : Prop where
  closed : endsInBlock false line = false
  opens : Text.startsWith (withoutBlock line) ['/', '/']

/-- Each pass sees the comment for what it is. -/
def Contained : Comment → Prop
  | hash .. => True
  | slash body _ => StaysLine (withoutHash ('/' :: '/' :: body))
  | block body _ => ¬OpensHash body

/-- The comments that are left behind the first pass. -/
def BehindHash : Comment → Prop
  | hash .. => False
  | slash body _ => StaysLine ('/' :: '/' :: body)
  | block .. => True

/-- The comments that are left behind the second pass. -/
def BehindBlock : Comment → Prop
  | slash .. => True
  | _ => False

variable {cs : List Char}

/-! ### The last pass -/

theorem slashFrom_line {body : List Char} (hline : '\n' ∉ body) (hcs : ∀ x ∈ cs.head?, x = '\n')
    (before : Option Char) :
    slashFrom true before (body ++ cs) = slashFrom false none cs := by
  induction body with
  | nil =>
    cases cs with
    | nil => rfl
    | cons c cs =>
      obtain rfl := hcs c rfl
      rfl
  | cons c body ih =>
    have hc : c ≠ '\n' := fun he => hline (by rw [he]; exact List.mem_cons_self)
    rw [List.cons_append, slashFrom]
    simpa [hc] using ih fun hmem => hline (List.mem_cons_of_mem c hmem)

/-- A text without two slashes stays. -/
theorem slashFrom_solid {xs : List Char} (hxs : Text.contains xs ['/', '/'] = false) {x : Char}
    (hx : x ≠ '/') (before : Option Char) (cs : List Char) :
    slashFrom false before (xs ++ x :: cs) = xs ++ x :: slashFrom false (some x) cs := by
  induction xs generalizing before with
  | nil => simp [slashFrom, hx]
  | cons c xs ih =>
    rw [contains_pair_cons] at hxs
    have hpair : c = '/' → (xs ++ x :: cs).head? ≠ some '/' := by
      intro hc hhead
      cases xs with
      | nil => exact hx (by simpa using hhead)
      | cons d xs => exact hxs.1 hc hhead
    rw [List.cons_append, slashFrom, ih hxs.2]
    simp_all

theorem spells_slashFrom {ts : List Token} (h : Spells BehindBlock ts cs) (before : Option Char)
    (hbefore : '/' ∈ cs.head? → opensBehind before) : Plain ts (slashFrom false before cs) := by
  induction h generalizing before with
  | done => exact .done
  | @space c ts cs blank rest ih =>
    have hc : c ≠ '/' := by rintro rfl; cases blank
    have hopens : opensBehind (some c) := by
      simp only [isSpace, Bool.or_eq_true, beq_iff_eq] at blank
      rcases blank with ((rfl | rfl) | rfl) | rfl <;> decide
    rw [slashFrom]
    simpa [hc] using Spells.space blank (ih (some c) fun _ => hopens)
  | @comment c ts cs admitted border rest ih =>
    cases c with
    | hash | block => cases admitted
    | slash body line =>
      have hopens : opensBehind before := hbefore rfl
      have hcs : ∀ x ∈ cs.head?, x = '\n' := border
      have hstart : slashFrom false before ('/' :: '/' :: (body ++ cs)) =
          slashFrom true before ('/' :: (body ++ cs)) := by
        rw [slashFrom]
        simp [hopens]
      have hline' : '\n' ∉ '/' :: body := by simpa using line
      rw [text, List.cons_append, List.cons_append, hstart, ← List.cons_append,
        slashFrom_line hline' hcs]
      exact ih none fun _ => rfl
  | @token t ts cs border rest ih =>
    obtain ⟨xs, x, htext, hfinal, -, -, hslash⟩ := t.exists_text_eq
    have hx : x ≠ '/' := ne_of_isFinal hfinal rfl
    have hhead : '/' ∉ cs.head? := fun hmem => (border '/' hmem).ne_slash rfl
    have hsolid : slashFrom false before (t.text ++ cs) =
        t.text ++ slashFrom false (some x) cs := by
      rw [htext, List.append_assoc, List.append_assoc]
      exact slashFrom_solid hslash hx before cs
    rw [hsolid]
    refine .token (fun y hy => border y ?_) (ih (some x) fun hmem => absurd hmem hhead)
    cases cs with
    | nil => cases hy
    | cons c cs =>
      have hc : c ≠ '/' := by simpa using hhead
      rw [slashFrom] at hy
      simpa [hc] using hy

/-! ### The pass before it -/

/-- A comment to the end of the line is one still when blocks in it are gone. -/
theorem StaysLine.exists_slash {line : List Char} (h : StaysLine line) (hline : '\n' ∉ line) :
    ∃ body hbody, withoutBlock line = (slash body hbody).text := by
  have hopens := h.opens
  have hmem : '\n' ∉ withoutBlock line := fun hmem =>
    hline ((mem_blockFrom hmem).resolve_left List.not_mem_nil)
  match hl : withoutBlock line with
  | [] | [_] => simp [hl, Text.startsWith] at hopens
  | c :: d :: body =>
    obtain ⟨rfl, rfl⟩ : c = '/' ∧ d = '/' := by simpa [hl, Text.startsWith] using hopens
    rw [hl] at hmem
    exact ⟨body, fun hb => hmem (by simp [hb]), rfl⟩

theorem head?_blockFrom {c : Char} (hc : c ≠ '/') (cs : List Char) :
    (blockFrom none (c :: cs)).head? = some c := by
  rw [blockFrom_none_cons fun h => absurd h hc]
  rfl

theorem spells_withoutBlock {ts : List Token} (h : Spells BehindHash ts cs) :
    Spells BehindBlock ts (withoutBlock cs) := by
  induction h with
  | done => exact .done
  | @space c ts cs blank rest ih =>
    have hc : c ≠ '/' := by rintro rfl; cases blank
    rw [withoutBlock, blockFrom_none_cons fun h => absurd h hc]
    exact .space blank ih
  | @comment c ts cs admitted border rest ih =>
    cases c with
    | hash => cases admitted
    | block body closed =>
      have hgone : withoutBlock ((block body closed).text ++ cs) = withoutBlock cs := by
        rw [text, withoutBlock]
        simp only [List.cons_append, List.append_assoc, List.nil_append]
        rw [blockFrom, blockFrom_block closed]
        rfl
      rw [hgone]
      exact ih
    | slash body line =>
      have hcs : ∀ x ∈ cs.head?, x ≠ '*' ∧ x ≠ '/' := by
        intro x hx
        obtain rfl : x = '\n' := border x hx
        decide
      obtain ⟨body', line', hleft⟩ := StaysLine.exists_slash admitted (by simpa using line)
      rw [text, withoutBlock, blockFrom_append (o := none) hcs (StaysLine.closed admitted)]
      rw [withoutBlock] at hleft
      rw [hleft]
      refine .comment (c := slash body' line') trivial (fun x hx => ?_) ih
      cases cs with
      | nil => cases hx
      | cons d cs =>
        rw [head?_blockFrom (hcs d rfl).2] at hx
        exact border x hx
  | @token t ts cs border rest ih =>
    obtain ⟨xs, x, htext, hfinal, -, hblock, -⟩ := t.exists_text_eq
    have hsolid : withoutBlock (t.text ++ cs) = t.text ++ withoutBlock cs := by
      rw [htext, List.append_assoc, List.append_assoc]
      exact blockFrom_solid hblock (ne_of_isFinal hfinal rfl) (ne_of_isFinal hfinal rfl) cs
    rw [hsolid]
    refine .token (fun y hy => border y ?_) ih
    cases cs with
    | nil => cases hy
    | cons c cs =>
      rwa [withoutBlock, head?_blockFrom (border c rfl).ne_slash] at hy

/-! ### The first pass -/

/-- No mark comes about where a comment is taken out: behind it there is a line feed. -/
theorem contains_hashFrom {s : HashState} (hs : ∀ c ∈ s.held, Text.isBlank c)
    (h : Text.contains cs ['*', '/'] = false) :
    Text.contains (hashFrom s cs) ['*', '/'] = false := by
  induction cs generalizing s with
  | nil =>
    have hstar : '*' ∉ s.held := fun hmem => absurd (hs '*' hmem) (by decide)
    rw [hashFrom_nil, ← List.append_nil s.held, contains_pair_append hstar]
    rfl
  | cons c cs ih =>
    rw [contains_pair_cons] at h
    rw [hashFrom_cons]
    rcases step_cases s c with hout | ⟨hout, hstate⟩
    · rw [hout]
      exact ih (held_advance hs [c]) h.2
    · have hstar : '*' ∉ s.held := fun hmem => absurd (hs '*' hmem) (by decide)
      rw [hout, hstate, List.append_assoc, contains_pair_append hstar, List.singleton_append,
        contains_pair_cons]
      refine ⟨fun hc hhead => ?_, ih (by simp [HashState.held]) h.2⟩
      rcases head?_hashFrom_text hhead with hfeed | hhead
      · cases hfeed
      · exact h.1 hc hhead

/-- Dropping blanks from its end leaves a line a comment. -/
theorem StaysLine.of_append_blanks {line held : List Char} (hheld : ∀ c ∈ held, Text.isBlank c)
    (h : StaysLine (line ++ held)) : StaysLine line := by
  have hahead := noMarkAhead_blanks hheld
  have hclosed : endsInBlock false line = false := by
    have hall := h.closed
    rwa [endsInBlock_append hahead, endsInBlock_blanks hheld] at hall
  refine ⟨hclosed, ?_⟩
  have hopens := h.opens
  have hslash : '/' ∉ (blockFrom none held).head? := fun hmem => by
    have hmem := (mem_blockFrom (List.mem_of_head? hmem)).resolve_left List.not_mem_nil
    exact absurd (hheld '/' hmem) (by decide)
  rw [withoutBlock, blockFrom_append (o := none) hahead hclosed] at hopens
  rw [withoutBlock]
  match blockFrom none line, hopens with
  | [], hopens =>
    cases hb : blockFrom none held with
    | nil => simp [hb, Text.startsWith] at hopens
    | cons c cs =>
      rw [hb, List.nil_append, startsWith_pair] at hopens
      rw [hb, hopens.1] at hslash
      exact absurd rfl hslash
  | [c], hopens =>
    rw [List.singleton_append, startsWith_pair] at hopens
    exact absurd hopens.2 hslash
  | c :: d :: line, hopens =>
    rw [List.cons_append, startsWith_pair] at hopens
    exact startsWith_pair.mpr ⟨hopens.1, hopens.2⟩

/-- What is behind a comment that the first pass leaves, it leaves with the same border. -/
theorem Borders.hashFrom {c : Comment} (h : ∀ x ∈ cs.head?, c.Borders x) {x : Char}
    (hx : x ∈ (hashFrom (.blanks []) cs).head?) : c.Borders x := by
  rcases (head?_hashFrom cs).2 [] x hx with rfl | hmem
  · cases c <;> rfl
  · exact h x hmem

/-- Of a comment to the end of the line, what the first pass leaves is one too: all of it, or all
but the blanks at its end. -/
theorem spells_hashFrom_slash {ts : List Token} {body : List Char} (line : '\n' ∉ body)
    (admitted : (slash body line).Contained) (border : ∀ x ∈ cs.head?, x = '\n')
    (rest : Spells BehindHash ts (hashFrom (.blanks []) cs)) :
    Spells BehindHash ts ('/' :: '/' :: hashFrom .text (body ++ cs)) := by
  have hstays : StaysLine ('/' :: '/' :: hashFrom .text body) := admitted
  have hborder : ∀ x ∈ (hashFrom (.blanks []) cs).head?, (slash body line).Borders x :=
    fun x => Borders.hashFrom (c := slash body line) border
  have hleft : ∀ left, '\n' ∉ left → StaysLine ('/' :: '/' :: left) →
      Spells BehindHash ts ('/' :: '/' :: (left ++ hashFrom (.blanks []) cs)) :=
    fun left hline hleft => .comment (c := slash left hline) hleft hborder rest
  have hall := hashFrom_eq_advance .text body
  have hline : '\n' ∉ hashFrom .text body := fun hmem =>
    line ((mem_hashFrom hmem).resolve_left List.not_mem_nil)
  rw [hashFrom_append]
  rcases hashFrom_lineEnd (HashState.text.advance body).2 border with hend | hend
  · rw [hend, ← List.append_assoc, ← hall]
    exact hleft _ hline hstays
  · rw [hall] at hline hstays
    have hstays : StaysLine (('/' :: '/' :: (HashState.text.advance body).1) ++
        (HashState.text.advance body).2.held) := hstays
    have hblanks : ∀ x ∈ (HashState.text.advance body).2.held, Text.isBlank x :=
      held_advance (by simp [HashState.held]) body
    rw [hend]
    exact hleft _ (fun hmem => hline (List.mem_append_left _ hmem))
      (hstays.of_append_blanks hblanks)

/-- Of a block in which no `#` begins a comment that is open at its end, the first pass leaves a
block. -/
theorem spells_hashFrom_block {ts : List Token} {body : List Char}
    (closed : Text.contains body ['*', '/'] = false) (admitted : (block body closed).Contained)
    (border : ∀ x ∈ cs.head?, isSpace x) (rest : Spells BehindHash ts (hashFrom (.blanks []) cs)) :
    Spells BehindHash ts ('/' :: '*' :: hashFrom .text (body ++ '*' :: '/' :: cs)) := by
  have hclosed : Text.contains (hashFrom .text body) ['*', '/'] = false :=
    contains_hashFrom (by simp [HashState.held]) closed
  have hborder : ∀ x ∈ (hashFrom (.blanks []) cs).head?, (block _ hclosed).Borders x :=
    fun x => Borders.hashFrom (c := block _ hclosed) border
  have hnext : '#' ∉ cs.head? := fun hmem => by
    have hspace := border '#' hmem
    cases hspace
  have hslash : hashFrom .text ('/' :: cs) = '/' :: hashFrom (.blanks []) cs := by
    rw [hashFrom_cons, ← hashFrom_text hnext]
    rfl
  rw [hashFrom_text_append admitted (by decide) (by decide), hslash]
  have hspells := Spells.comment (c := block _ hclosed) trivial hborder rest
  rw [text] at hspells
  simpa only [List.cons_append, List.append_assoc, List.nil_append] using hspells

theorem spells_hashFrom {ts : List Token} (h : Spells Contained ts cs) {held : List Char}
    (hheld : ∀ c ∈ held, isSpace c) : Spells BehindHash ts (hashFrom (.blanks held) cs) := by
  have hrev : ∀ c ∈ held.reverse, isSpace c := fun c hc => hheld c (List.mem_reverse.mp hc)
  have hnone : ∀ c ∈ ([] : List Char), isSpace c := fun c hc => absurd hc List.not_mem_nil
  -- The pass comes to each part of the spelling holding back blanks, and puts them out before it.
  induction h generalizing held with
  | done =>
    rw [hashFrom, ← List.append_nil held.reverse]
    exact Spells.done.spaces hrev
  | @space c ts cs blank rest ih =>
    have hall : ∀ x ∈ c :: held, isSpace x := List.forall_mem_cons.mpr ⟨blank, hheld⟩
    rw [hashFrom_cons, step_blanks_of_blank (isBlank_of_isSpace blank)]
    exact ih hall fun x hx => hall x (List.mem_reverse.mp hx)
  | @comment c ts cs admitted border rest ih =>
    cases c with
    | hash body line =>
      rw [text, List.cons_append, hashFrom_cons, step_blanks_hash, List.nil_append,
        hashFrom_append, advance_comment line, List.nil_append]
      rcases hashFrom_lineEnd .comment border with heq | heq
      · rw [heq]
        exact ih hnone hnone
      · rw [heq]
        exact ih hnone hnone
    | slash body line =>
      have hstart : hashFrom (.blanks held) ((slash body line).text ++ cs) =
          held.reverse ++ '/' :: '/' :: hashFrom .text (body ++ cs) := by
        simp [text, hashFrom_cons, HashState.step, Text.isBlank]
      rw [hstart]
      exact (spells_hashFrom_slash line admitted border (ih hnone hnone)).spaces hrev
    | block body closed =>
      have hstart : hashFrom (.blanks held) ((block body closed).text ++ cs) =
          held.reverse ++ '/' :: '*' :: hashFrom .text (body ++ '*' :: '/' :: cs) := by
        simp [text, hashFrom_cons, HashState.step, Text.isBlank]
      rw [hstart]
      exact (spells_hashFrom_block closed admitted border (ih hnone hnone)).spaces hrev
  | @token t ts cs border rest ih =>
    obtain ⟨xs, x, htext, hfinal, hhash, -, -⟩ := t.exists_text_eq
    have hsolid : hashFrom (.blanks held) (t.text ++ cs) =
        held.reverse ++ (t.text ++ hashFrom .text cs) := by
      rw [htext, List.append_assoc, List.append_assoc]
      exact hashFrom_solid (Or.inr ⟨held, rfl⟩) hhash (not_isBlank_of_isFinal hfinal)
        (ne_of_isFinal hfinal rfl) cs
    have hnext : '#' ∉ cs.head? := fun hmem => (border '#' hmem).ne_hash rfl
    rw [hsolid, hashFrom_text hnext]
    refine Spells.spaces hrev (.token (fun y hy => ?_) (ih hnone hnone))
    rcases (head?_hashFrom cs).2 [] y hy with rfl | hmem
    · exact t.borders_lineFeed
    · exact border y hmem

/-- A text with such comments is left with none. -/
theorem plain_strip {ts : List Token} {text : String} (h : Spells Contained ts text.toList) :
    Plain ts (strip text).toList := by
  have hhash : Spells BehindHash ts (withoutHash text.toList) := by
    rw [withoutHash, hashFrom_start]
    exact spells_hashFrom h fun c hc => absurd hc List.not_mem_nil
  rw [strip, String.toList_ofList]
  exact spells_slashFrom (spells_withoutBlock hhash) none fun _ => rfl

end Comment
end TokenLint.Json
