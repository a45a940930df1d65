import Mathlib.Data.List.Basic
import TokenLint.FileTree

/-!
# Reading a tree after a tree was put into it

What was put is read back where it was put. Elsewhere the same files are read as before, when
there was something in the place before: `fileAt?` is the view of a tree in which directories do
not count.
-/
namespace TokenLint.FileTree

/-- What the file that names lead to holds. -/
def fileAt? (t : FileTree) (names : List String) : Option Content :=
  match t.get? names with
  | some (.file c) => some c
  | _ => none

@[simp] theorem get?_nil (t : FileTree) : t.get? [] = some t := by
  cases t <;> rfl

theorem get?_cons (t : FileTree) (n : String) (ns : List String) :
    t.get? (n :: ns) = (t.entries.lookup n).bind (·.get? ns) := by
  rw [get?]

theorem get?_append (t : FileTree) (ns ms : List String) :
    t.get? (ns ++ ms) = (t.get? ns).bind (·.get? ms) := by
  induction ns generalizing t with
  | nil => rw [List.nil_append, get?_nil, Option.bind_some]
  | cons n ns ih =>
    rw [List.cons_append, get?_cons, get?_cons]
    cases t.entries.lookup n with
    | none => rfl
    | some child => exact ih child

/-- Nothing is below a file. -/
theorem get?_file {c : Content} {names : List String} (h : names ≠ []) :
    (file c).get? names = none := by
  cases names with
  | nil => exact absurd rfl h
  | cons n ns => rfl

section SetEntry

variable {name other : String}

theorem lookup_setEntry_self (name : String) (t : FileTree) (es : List (String × FileTree)) :
    (setEntry name t es).lookup name = some t := by
  induction es with
  | nil => simp [setEntry]
  | cons e es ih =>
    obtain ⟨n, u⟩ := e
    rw [setEntry]
    split
    · rename_i hn
      rw [List.lookup_cons, hn]
    · split
      · exact List.lookup_cons_self
      · rename_i hn _
        rw [List.lookup_cons, Bool.eq_false_iff.mpr hn]
        exact ih

/-- Setting an entry leaves the others as they are. -/
theorem lookup_setEntry_of_ne (h : other ≠ name) (t : FileTree)
    (es : List (String × FileTree)) : (setEntry name t es).lookup other = es.lookup other := by
  have hother : (other == name) = false := by simpa using h
  induction es with
  | nil => rw [setEntry, List.lookup_cons, hother]
  | cons e es ih =>
    obtain ⟨n, u⟩ := e
    rw [setEntry]
    split
    · rename_i hn
      obtain rfl : name = n := by simpa using hn
      rw [List.lookup_cons, List.lookup_cons, hother]
    · split
      · rw [List.lookup_cons, hother]
      · rw [List.lookup_cons, List.lookup_cons, ih]

end SetEntry

@[simp] theorem put_nil (t new : FileTree) : t.put [] new = new := by
  rw [put]

theorem put_cons (t : FileTree) (n : String) (ns : List String) (new : FileTree) :
    t.put (n :: ns) new = .directory
      (setEntry n (((t.entries.lookup n).getD empty).put ns new) t.entries) := by
  rw [put]

/-- Below the place where a tree was put, that tree is read. -/
theorem get?_put_append (t : FileTree) (ns ms : List String) (new : FileTree) :
    (t.put ns new).get? (ns ++ ms) = new.get? ms := by
  induction ns generalizing t with
  | nil => rw [put_nil, List.nil_append]
  | cons n ns ih =>
    rw [put_cons, List.cons_append, get?_cons, entries, lookup_setEntry_self, Option.bind_some, ih]

theorem get?_put_self (t : FileTree) (ns : List String) (new : FileTree) :
    (t.put ns new).get? ns = some new := by
  have h := get?_put_append t ns [] new
  rwa [List.append_nil, get?_nil] at h

/-- Outside of the place where a tree was put, the files are those of before. -/
theorem fileAt?_put_of_not_prefix {ns path : List String} (new : FileTree) :
    ∀ {t : FileTree}, (t.get? ns).isSome → ¬ ns <+: path →
      (t.put ns new).fileAt? path = t.fileAt? path := by
  induction ns generalizing path with
  | nil => exact fun _ hpath => absurd (List.nil_prefix) hpath
  | cons n ns ih =>
    intro t ht hpath
    rw [get?_cons] at ht
    obtain ⟨child, hchild⟩ : ∃ child, t.entries.lookup n = some child := by
      cases hlookup : t.entries.lookup n with
      | none => rw [hlookup] at ht; cases ht
      | some child => exact ⟨child, rfl⟩
    rw [hchild, Option.bind_some] at ht
    rw [put_cons, hchild, Option.getD_some]
    cases path with
    | nil =>
      -- a tree with entries is no file
      cases t with
      | file c => cases hchild
      | directory es => rfl
    | cons m ms =>
      unfold fileAt?
      rw [get?_cons, get?_cons, entries]
      by_cases hm : m = n
      · subst hm
        have hms : ¬ ns <+: ms := fun h => hpath (by simpa using h)
        rw [lookup_setEntry_self, hchild, Option.bind_some, Option.bind_some]
        exact ih ht hms
      · rw [lookup_setEntry_of_ne hm]

/-- A file is replaced without a change to any other. -/
theorem fileAt?_put_file {t : FileTree} {ns path : List String} {old : Content}
    (ht : t.fileAt? ns = some old) (new : Content) (hne : path ≠ ns) :
    (t.put ns (.file new)).fileAt? path = t.fileAt? path := by
  have hget : t.get? ns = some (.file old) := by
    unfold fileAt? at ht
    split at ht
    · rename_i hget
      rw [hget, Option.some.inj ht]
    · cases ht
  by_cases hpre : ns <+: path
  · obtain ⟨ms, rfl⟩ := hpre
    have hms : ms ≠ [] := fun h => hne (by rw [h, List.append_nil])
    unfold fileAt?
    rw [get?_put_append, get?_append, hget, Option.bind_some, get?_file hms, get?_file hms]
  · exact fileAt?_put_of_not_prefix (.file new) (by rw [hget]; rfl) hpre

theorem fileAt?_put_self (t : FileTree) (ns : List String) (c : Content) :
    (t.put ns (.file c)).fileAt? ns = some c := by
  unfold fileAt?
  rw [get?_put_self]

end TokenLint.FileTree
