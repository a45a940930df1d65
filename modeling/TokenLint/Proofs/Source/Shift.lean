import TokenLint.Proofs.Edit.Apply
import TokenLint.Proofs.Source.Nesting

/-!
# Nodes of an edited text

One edit leaves what stands before it where it is, and moves what stands behind it. A node on
either side of the edit keeps its text, and so does everything below it.
-/
namespace TokenLint

open Text

/-- Where an offset behind an edit comes to stand. -/
def Edit.shift (e : Edit) (offset : Nat) : Nat :=
  offset - e.span.stop + (e.span.start + size e.text.toList)

namespace Text

/-- Of two cuts the one with fewer bytes in front comes first. -/
theorem exists_mid {as bs cs ds : List Char} (h : as ++ bs = cs ++ ds) (hle : size as ≤ size cs) :
    ∃ mid, cs = as ++ mid ∧ bs = mid ++ ds := by
  rcases List.append_eq_append_iff.mp h with ⟨mid, rfl, rfl⟩ | ⟨mid, rfl, rfl⟩
  · exact ⟨mid, rfl, rfl⟩
  · obtain rfl : mid = [] := eq_nil_of_size (by rw [size_append] at hle; omega)
    exact ⟨[], by simp, rfl⟩

theorem slice_eq {text : String} {span : Span} {front part back : List Char}
    (h : text.toList = front ++ (part ++ back)) (hstart : size front = span.start)
    (hstop : size front + size part = span.stop) : slice text span = String.ofList part := by
  have hlength : span.stop - size front = size part := by omega
  have hle : size front ≤ span.stop := by omega
  simp only [slice, slice?, ← hstart, hle, if_true, hlength, h, drop?_size, Option.bind_some,
    take?_size, Option.getD_some]

theorem slice_of_le {text : String} {span : Span} (h : span.stop ≤ span.start) :
    slice text span = "" := by
  have hnil : ∀ cs : List Char, (slice? cs span.start span.stop).getD [] = [] := by
    intro cs
    unfold slice?
    split
    · rw [Nat.sub_eq_zero_of_le h]
      cases drop? cs span.start with
      | none => rfl
      | some rest =>
        rw [Option.bind_some]
        cases rest <;> rfl
    · rfl
  rw [slice, hnil]

/-- What is read in front of a place depends on nothing behind it. -/
theorem slice?_append_left {front : List Char} (rest : List Char) {start stop : Nat}
    (h : stop ≤ size front) : slice? (front ++ rest) start stop = slice? front start stop := by
  unfold slice?
  split
  · rename_i hle
    rw [drop?_append_left rest (Nat.le_trans hle h)]
    cases hdrop : drop? front start with
    | none => rfl
    | some tail =>
      obtain ⟨head, rfl, rfl⟩ := drop?_eq_some.mp hdrop
      rw [size_append] at h
      exact take?_append_left rest (by omega)
  · rfl

theorem slice?_append_right (front rest : List Char) (start stop : Nat) :
    slice? (front ++ rest) (size front + start) (size front + stop) = slice? rest start stop := by
  have hsub : size front + stop - (size front + start) = stop - start := by omega
  have hle : size front + start ≤ size front + stop ↔ start ≤ stop := by omega
  simp only [slice?, drop?_append_right, hsub, hle]

/-- A range cuts a text in three. -/
theorem IsRange.exists_cut {cs : List Char} {span : Span} (h : IsRange cs span) :
    ∃ front part back, cs = front ++ (part ++ back) ∧ size front = span.start ∧
      size front + size part = span.stop := by
  obtain ⟨hle, ⟨front, rest, rfl, hstart⟩, hstop⟩ := h
  obtain ⟨k, hk⟩ := Nat.exists_eq_add_of_le hle
  rw [hk, ← hstart, isBoundary_append] at hstop
  obtain ⟨part, back, rfl, hpart⟩ := hstop
  exact ⟨front, part, back, rfl, hstart, by omega⟩

end Text

namespace EditPlan

variable {e : Edit} {text : String} {span : Span}

theorem apply_singleton (h : IsRange text.toList e.span) :
    ∃ front old back, text.toList = front ++ (old ++ back) ∧ size front = e.span.start ∧
      size front + size old = e.span.stop ∧
      (apply [e] text).toList = front ++ (e.text.toList ++ back) := by
  have happly := replaced_apply [e] text
  have haccepted : accepted [e] text = [e] := by
    simp [accepted, ordered, acceptedFrom, h]
  rw [haccepted] at happly
  generalize (apply [e] text).toList = out at happly
  generalize text.toList = cs at happly
  cases happly with
  | edit start stop more =>
    cases more
    exact ⟨_, _, _, rfl, by omega, by omega, List.append_assoc _ _ _⟩

theorem slice_before (h : IsRange text.toList e.span) (hle : span.stop ≤ e.span.start) :
    slice (apply [e] text) span = slice text span := by
  obtain ⟨front, old, back, htext, hfront, -, happly⟩ := apply_singleton h
  rw [← hfront] at hle
  rw [slice, slice, htext, happly, slice?_append_left _ hle, slice?_append_left _ hle]

theorem slice_behind (h : IsRange text.toList e.span) (hle : e.span.stop ≤ span.start) :
    slice (apply [e] text) ⟨e.shift span.start, e.shift span.stop⟩ = slice text span := by
  obtain ⟨front, old, back, htext, hfront, hold, happly⟩ := apply_singleton h
  rcases Nat.lt_or_ge span.stop span.start with hempty | horder
  · rw [slice_of_le (Nat.le_of_lt hempty), slice_of_le]
    unfold Edit.shift
    dsimp only
    omega
  · obtain ⟨a, ha⟩ := Nat.exists_eq_add_of_le hle
    obtain ⟨b, hb⟩ := Nat.exists_eq_add_of_le (Nat.le_trans hle horder)
    have hbefore : size (front ++ old) = e.span.stop := by rw [size_append, hold]
    have hafter : size (front ++ e.text.toList) = e.span.start + size e.text.toList := by
      rw [size_append, hfront]
    have hshift : ∀ k, e.shift (e.span.stop + k) = size (front ++ e.text.toList) + k := by
      intro k
      rw [hafter, Edit.shift]
      omega
    rw [slice, slice, htext, happly, ← List.append_assoc, ← List.append_assoc, ha, hb, hshift,
      hshift, ← hbefore, slice?_append_right, slice?_append_right]

end EditPlan

namespace Source.Node

mutual
/-- A subtree with every offset in it mapped. -/
def move (f : Nat → Nat) : Node → Node
  | mk k r s e cs => mk k r (f s) (f e) (moveAll f cs)

def moveAll (f : Nat → Nat) : List Node → List Node
  | [] => []
  | n :: ns => n.move f :: moveAll f ns
end

variable {f : Nat → Nat}

theorem moveAll_eq (f : Nat → Nat) (ns : List Node) : moveAll f ns = ns.map (move f) := by
  induction ns with
  | nil => rfl
  | cons n ns ih => rw [moveAll, ih, List.map_cons]

@[simp] theorem kind_move (n : Node) : (n.move f).kind = n.kind := by
  cases n
  rfl

@[simp] theorem role_move (n : Node) : (n.move f).role = n.role := by
  cases n
  rfl

@[simp] theorem start_move (n : Node) : (n.move f).start = f n.start := by
  cases n
  rfl

@[simp] theorem stop_move (n : Node) : (n.move f).stop = f n.stop := by
  cases n
  rfl

@[simp] theorem children_move (n : Node) : (n.move f).children = n.children.map (move f) := by
  cases n with
  | mk k r s e cs => rw [move, children, moveAll_eq, children]

theorem move_id (n : Node) : n.move id = n := by
  induction n using child_induction with
  | step n ih =>
    cases n with
    | mk k r s e cs =>
      have hcs : cs.map (move id) = cs :=
        (List.map_congr_left ih).trans (List.map_id cs)
      rw [move, moveAll_eq, hcs]
      rfl

theorem child?_move (n : Node) (r : Role) : (n.move f).child? r = (n.child? r).map (move f) := by
  have hsame : (fun c => c.role == r) ∘ move f = fun c => c.role == r :=
    funext fun c => by rw [Function.comp, role_move]
  rw [child?, children_move, List.find?_map, child?, hsame]

theorem childOf?_move (n : Node) (k : Kind) :
    (n.move f).childOf? k = (n.childOf? k).map (move f) := by
  have hsame : (fun c => c.kind == k) ∘ move f = fun c => c.kind == k :=
    funext fun c => by rw [Function.comp, kind_move]
  rw [childOf?, children_move, List.find?_map, childOf?, hsame]

/-- Everything in a subtree keeps its text when the subtree is moved into another file. -/
structure Kept (file file' : SourceFile) (f : Nat → Nat) (n : Node) : Prop where
  text : ∀ m ∈ n.preorder, file'.nodeText (m.move f) = file.nodeText m
  content : ∀ m ∈ n.preorder, file'.slice (m.move f).content = file.slice m.content
  order : ∀ m ∈ n.preorder, ∀ c ∈ m.children, f m.start < f c.start ↔ m.start < c.start

theorem Kept.child {file file' : SourceFile} {n c : Node} (h : Kept file file' f n)
    (hc : c ∈ n.children) : Kept file file' f c where
  text m hm := h.text m (mem_preorder_trans (mem_preorder_of_mem_children hc) hm)
  content m hm := h.content m (mem_preorder_trans (mem_preorder_of_mem_children hc) hm)
  order m hm := h.order m (mem_preorder_trans (mem_preorder_of_mem_children hc) hm)

end Source.Node

open Source Node

variable {file file' : SourceFile} {e : Edit} {n : Node}

/-- A node that ends before the edit is kept where it is. -/
theorem kept_before (hf : file.WellFormed) (he : IsRange file.text.toList e.span)
    (htext : file'.text = EditPlan.apply [e] file.text) (hn : n ∈ file.root.preorder)
    (hle : n.stop ≤ e.span.start) : Kept file file' id n := by
  have hwithin : ∀ m ∈ n.preorder, m ∈ file.root.preorder ∧ m.stop ≤ e.span.start := fun m hm =>
    ⟨mem_preorder_trans hn hm,
      Nat.le_trans (within_of_mem_preorder (nests_of_mem hf.nests hn) hm).2 hle⟩
  refine ⟨fun m hm => ?_, fun m hm => ?_, fun _ _ _ _ => Iff.rfl⟩
  · obtain ⟨hroot, hstop⟩ := hwithin m hm
    rw [move_id, SourceFile.nodeText, SourceFile.slice, htext]
    exact EditPlan.slice_before he hstop
  · obtain ⟨hroot, hstop⟩ := hwithin m hm
    rw [move_id, SourceFile.slice, htext]
    exact EditPlan.slice_before he (Nat.le_trans (content_within (hf.nests m hroot)).2 hstop)

/-- A node that begins behind the edit is kept where the edit moves it. -/
theorem kept_behind (hf : file.WellFormed) (he : IsRange file.text.toList e.span)
    (htext : file'.text = EditPlan.apply [e] file.text) (hn : n ∈ file.root.preorder)
    (hle : e.span.stop ≤ n.start) : Kept file file' e.shift n := by
  have hwithin : ∀ m ∈ n.preorder, m ∈ file.root.preorder ∧ e.span.stop ≤ m.start := fun m hm =>
    ⟨mem_preorder_trans hn hm,
      Nat.le_trans hle (within_of_mem_preorder (nests_of_mem hf.nests hn) hm).1⟩
  refine ⟨fun m hm => ?_, fun m hm => ?_, fun m hm c hc => ?_⟩
  · obtain ⟨hroot, hstart⟩ := hwithin m hm
    have hspan : e.span.stop ≤ m.span.start := hstart
    have hslice := EditPlan.slice_behind he hspan
    rw [SourceFile.nodeText, SourceFile.slice, htext, span, start_move, stop_move]
    exact hslice
  · obtain ⟨hroot, hstart⟩ := hwithin m hm
    have hle := (hf.nests m hroot).ordered
    have hcontent : (m.move e.shift).content =
        ⟨e.shift m.content.start, e.shift m.content.stop⟩ := by
      unfold content
      rw [start_move, stop_move]
      unfold Edit.shift
      split <;> split <;> simp only [Span.mk.injEq] <;> omega
    have hslice := EditPlan.slice_behind he
      (Nat.le_trans hstart (content_within (hf.nests m hroot)).1)
    rw [SourceFile.slice, htext, hcontent]
    exact hslice
  · obtain ⟨-, hstart⟩ := hwithin m hm
    obtain ⟨-, hstart'⟩ := hwithin c (mem_preorder_child hm hc)
    unfold Edit.shift
    omega

end TokenLint
