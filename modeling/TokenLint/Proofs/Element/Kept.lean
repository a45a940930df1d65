import TokenLint.Proofs.Element.Reading
import TokenLint.Proofs.Text.Words

/-!
# Classes that are kept

The edit of an element's classes keeps some of them, each once and in the order in which they
appear first. They are what the new value is read as, so the same edit made again writes the same
value. When no class is kept the attribute goes, with the blanks before it.
-/
namespace TokenLint

open Source Text

namespace ClassList

variable {file : SourceFile} {e : Element} {c c' : ClassList} {keep : String → Bool}

/-- The classes that are kept, each once. -/
def kept (c : ClassList) (keep : String → Bool) : List String := distinct (c.classes.filter keep)

theorem mem_kept {name : String} : name ∈ c.kept keep ↔ name ∈ c.classes ∧ keep name := by
  rw [kept, mem_distinct, List.mem_filter]

theorem kept_eq_nil_iff : c.kept keep = [] ↔ ∀ name ∈ c.classes, keep name = false := by
  rw [List.eq_nil_iff_forall_not_mem]
  simp [mem_kept]

theorem retain_of_kept_eq_nil (h : c.kept keep = []) : c.retain keep = .delete c.slot := by
  rw [kept] at h
  rw [retain, h]
  rfl

theorem retain_of_kept_ne_nil (h : c.kept keep ≠ []) :
    c.retain keep = ⟨c.value.content, " ".intercalate (c.kept keep)⟩ := by
  unfold retain
  split
  · rename_i hnil
    exact absurd hnil h
  · rfl

theorem isWord_of_classList? (hc : e.classList? file = some c) :
    ∀ name ∈ c.classes, IsWord name := by
  obtain ⟨-, -, -, -, -, -, -, hclasses⟩ := Element.exists_holder hc
  rw [hclasses]
  exact fun name => isWord_of_mem_words

/-- The kept classes are read from the new value. -/
theorem words_kept (hc : e.classList? file = some c) (keep : String → Bool) :
    words (" ".intercalate (c.kept keep)) = c.kept keep :=
  words_intercalate fun name hname => isWord_of_classList? hc name (mem_kept.mp hname).1

/-- Of classes that were kept all are kept again. -/
theorem kept_again (h : c'.classes = c.kept keep) : c'.kept keep = c.kept keep := by
  have hall : (c.kept keep).filter keep = c.kept keep :=
    List.filter_eq_self.mpr fun name hname => (mem_kept.mp hname).2
  rw [kept, h, hall]
  exact distinct_of_nodup (nodup_distinct _)

/-! ### Where the edit is -/

theorem slot_lt (hf : file.WellFormed) (he : e ∈ Element.all file)
    (hc : e.classList? file = some c) : c.slot.start < c.slot.stop := by
  have hin := Element.inFile_of_mem_all hf he
  have hof := of_classList? hf hin hc
  obtain ⟨pre, post, hcs, hclass, -⟩ := Element.exists_holder hc
  obtain ⟨name, -, hname, hne⟩ := Element.name_of_isClass hclass
  have hwithin := (hin.holds_name hf hof.holder hname).2
  exact Nat.lt_of_le_of_lt (Nat.le_trans hof.before_le hwithin.1) (Nat.lt_of_lt_of_le hne hwithin.2)

/-- A value that has classes is not empty. -/
theorem content_lt (hc : e.classList? file = some c) (hsome : c.classes ≠ []) :
    c.value.content.start < c.value.content.stop := by
  obtain ⟨-, -, -, -, -, -, -, hclasses⟩ := Element.exists_holder hc
  refine Nat.lt_of_not_le fun hle => hsome ?_
  rw [hclasses, SourceFile.slice, slice_of_le hle]
  rfl

theorem spread_retain (hf : file.WellFormed) (he : e ∈ Element.all file)
    (hc : e.classList? file = some c) (keep : String → Bool) :
    EditPlan.Spread file.text.toList [c.retain keep] := by
  have hin := Element.inFile_of_mem_all hf he
  refine ⟨fun ed hed => ?_, List.pairwise_singleton _ _⟩
  obtain rfl := List.mem_singleton.mp hed
  exact retain_fits (of_classList? hf hin hc) hf hin keep

/-- The new value is read in the place of the old one. -/
theorem slice_image_content (hc : e.classList? file = some c) {keep : String → Bool}
    (hkept : c.kept keep ≠ []) {plan : EditPlan} (hplan : plan.Spread file.text.toList)
    (hmem : c.retain keep ∈ plan) :
    slice (plan.apply file.text) (plan.image c.value.content) =
      " ".intercalate (c.kept keep) := by
  have hretain := retain_of_kept_ne_nil hkept
  obtain ⟨name, hname⟩ := List.exists_mem_of_ne_nil _ hkept
  have hlt := content_lt hc (List.ne_nil_of_mem (mem_kept.mp hname).1)
  have hread := hplan.slice_image_of_mem hmem (by rwa [hretain])
  rwa [hretain] at hread

/-- Where no class is kept the attribute is gone, and only there. Otherwise its value is read as
the kept classes, without repeats and in the order of their first appearance, and where such a value
is read the same edit writes it again. -/
theorem retain_exact (hf : file.WellFormed) (he : e ∈ Element.all file)
    (hc : e.classList? file = some c) (keep : String → Bool) {plan : EditPlan}
    (hplan : plan.Spread file.text.toList) (hmem : c.retain keep ∈ plan) :
    ((∀ name ∈ c.classes, keep name = false) ∧ c.retain keep = .delete c.slot ∧
      slice (plan.apply file.text) (plan.image c.slot) = "") ∨
    ((∃ name ∈ c.classes, keep name) ∧ ∃ value : String,
      c.retain keep = ⟨c.value.content, value⟩ ∧
      slice (plan.apply file.text) (plan.image c.value.content) = value ∧
      FirstSeen (c.classes.filter keep) (words value) ∧
      ∀ (file' : SourceFile) (e' : Element) (c' : ClassList), e'.classList? file' = some c' →
        file'.slice c'.value.content = value → c'.retain keep = ⟨c'.value.content, value⟩) := by
  by_cases hkept : c.kept keep = []
  · have hretain := retain_of_kept_eq_nil hkept
    rw [hretain] at hmem
    exact .inl ⟨kept_eq_nil_iff.mp hkept, hretain,
      hplan.slice_image_of_mem hmem (slot_lt hf he hc)⟩
  · have hwords := words_kept hc keep
    obtain ⟨name, hname⟩ := List.exists_mem_of_ne_nil _ hkept
    refine .inr ⟨⟨name, mem_kept.mp hname⟩, " ".intercalate (c.kept keep),
      retain_of_kept_ne_nil hkept, slice_image_content hc hkept hplan hmem, ?_, ?_⟩
    · rw [hwords]
      exact firstSeen_distinct _
    · intro file' e' c' hc' hvalue
      obtain ⟨-, -, -, -, -, -, -, hclasses⟩ := Element.exists_holder hc'
      have hagain := kept_again (by rw [hclasses, hvalue, hwords])
      rw [retain_of_kept_ne_nil (by rwa [hagain]), hagain]

/-- An element that has a class twice, with a wide blank between two classes. -/
def spaced : SourceFile := .parse "a=<b i='x' class='p-4\u2003m-1\tp-4'>y</b>"

/-- One class is kept of `spaced` where the other is dropped, and nothing where all are. -/
theorem spaced_retain_exact :
    spaced.WellFormed ∧ ∃ e ∈ Element.all spaced, ∃ c, e.classList? spaced = some c ∧
      c.classes = ["p-4", "m-1", "p-4"] ∧
      (∃ value : String, c.retain (· != "m-1") = ⟨c.value.content, value⟩ ∧
        FirstSeen (c.classes.filter (· != "m-1")) (words value) ∧
        ∀ (file' : SourceFile) (e' : Element) (c' : ClassList), e'.classList? file' = some c' →
          file'.slice c'.value.content = value →
          c'.retain (· != "m-1") = ⟨c'.value.content, value⟩) ∧
      slice (EditPlan.apply [c.retain fun _ => false] spaced.text)
        (EditPlan.image [c.retain fun _ => false] c.slot) = "" := by
  obtain ⟨hf, hfound⟩ : spaced.WellFormed ∧ ∃ e ∈ Element.all spaced,
      ∃ c ∈ e.classList? spaced, c.classes = ["p-4", "m-1", "p-4"] := by
    decide +kernel
  obtain ⟨e, he, c, hc, hclasses⟩ := hfound
  have hplan := spread_retain hf he hc
  refine ⟨hf, e, he, c, hc, hclasses, ?_, ?_⟩
  · obtain ⟨hnone, -⟩ | ⟨-, value, hedit, -, hfirst, hagain⟩ :=
      retain_exact hf he hc (· != "m-1") (hplan _) List.mem_cons_self
    · have hkeep := hnone "p-4" (by rw [hclasses]; decide)
      exact absurd hkeep (by decide)
    · exact ⟨value, hedit, hfirst, hagain⟩
  · obtain ⟨-, -, hgone⟩ | ⟨⟨name, -, hkeep⟩, -⟩ :=
      retain_exact hf he hc (fun _ => false) (hplan _) List.mem_cons_self
    · exact hgone
    · cases hkeep

/-! ### Classes that are lost -/

/-- A class that is not among what is read, in the new text, in the place of the classes. -/
def Loses (c : ClassList) (plan : EditPlan) (text name : String) : Prop :=
  name ∈ c.classes ∧ name ∉ words (slice (plan.apply text) (plan.image c.value.content))

section
variable (hf : file.WellFormed) (he : e ∈ Element.all file) (hc : e.classList? file = some c)
  {plan : EditPlan} (hplan : plan.Spread file.text.toList) {name : String}
include hf he hc

theorem holds_content : e.Holds file c.value.content := by
  have hin := Element.inFile_of_mem_all hf he
  obtain ⟨-, -, -, hclass, -, hvalue, hkind, -⟩ := Element.exists_holder hc
  refine (hin.holds_string hf (of_classList? hf hin hc).holder ?_).1
  rw [Element.string_of_isClass hclass, hvalue, Option.filter_some, if_pos (beq_iff_eq.mpr hkind)]
  rfl

include hplan

/-- Edits beside the value lose no class. -/
theorem not_loses_of_apart (hapart : ∀ ed ∈ plan, ed.span.Apart c.value.content) :
    ¬c.Loses plan file.text name := by
  obtain ⟨-, -, -, -, -, -, -, hclasses⟩ := Element.exists_holder hc
  rintro ⟨hmem, hlost⟩
  rw [hplan.slice_image_of_apart (holds_content hf he hc).fits hapart] at hlost
  exact hlost (by rwa [hclasses] at hmem)

/-- The edit of the classes loses those that it does not keep. -/
theorem loses_iff {keep : String → Bool} (hretain : c.retain keep ∈ plan) :
    c.Loses plan file.text name ↔ name ∈ c.classes ∧ keep name = false := by
  refine and_congr_right fun hmem => ?_
  have hname : name ∈ c.kept keep ↔ keep name = true := mem_kept.trans (and_iff_right hmem)
  rw [← Bool.not_eq_true, ← hname, not_iff_not]
  by_cases hkept : c.kept keep = []
  · have hin := Element.inFile_of_mem_all hf he
    have hdelete := retain_of_kept_eq_nil hkept
    have hgone := hplan.slice_image_of_deleted hretain (by rw [hdelete]; rfl)
      (by rw [hdelete]; exact content_within_slot (of_classList? hf hin hc) hf hin)
      (content_lt hc (List.ne_nil_of_mem hmem))
    rw [hgone, hkept]
    rfl
  · rw [slice_image_content hc hkept hplan hretain, words_kept hc]

end

end ClassList
end TokenLint
