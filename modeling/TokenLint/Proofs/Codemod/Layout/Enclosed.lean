import TokenLint.Proofs.Codemod.Layout.Insertions
import TokenLint.Proofs.Edit.Around

/-!
# What a wrapper encloses

Tags always come in the order that nests the wrappers. The declaration of an import is planned last,
so where it falls on the beginning of a wrapped element it comes between the opening tag and the
element.
-/
namespace TokenLint.Codemod.Layout

open Source Text EditPlan

variable {file : SourceFile} {p q : Found}

/-! ### Where the tags are written -/

/-- No edit crosses an end of an element that is wrapped. -/
theorem uncrossed (hf : file.WellFormed) (hp : p ∈ found file) :
    (plan file).Uncrossed p.1.node.start ∧ (plan file).Uncrossed p.1.node.stop := by
  obtain ⟨he, hin, hmatch⟩ := mem_found hf hp
  have hn := hin.nests hf
  have hroot := hn p.1.node (Node.mem_preorder_self _)
  have halign := hf.aligned p.1.node hin.node
  have hof := ClassList.of_classList? hf hin (classList?_of_match? hmatch)
  have hretain :=
    (ClassList.holds_retain hof hf hin fun name => !p.2.1.consumed.contains name).within
  constructor
  · exact apart_of_holds hf he ⟨halign.start.isRange, hroot.start_within, Node.clear_start hn⟩
      (ownApart_of_match hmatch (.inr hretain.1))
  · exact apart_of_holds hf he ⟨halign.stop.isRange, hroot.stop_within, Node.clear_stop hn⟩
      (ownApart_of_match hmatch (.inl hretain.2))

/-- Where the opening tag of a wrapper is in the new text. -/
def opened (file : SourceFile) (p : Found) : Span := (plan file).written (openEdit file p)

def closed (file : SourceFile) (p : Found) : Span := (plan file).written (closeEdit file p)

/-- Where the element of a wrapper is in the new text. -/
def inner (file : SourceFile) (p : Found) : Span := (plan file).image p.1.node.span

/-- From the opening tag of a wrapper to its closing tag. -/
def wrapper (file : SourceFile) (p : Found) : Span := ⟨(opened file p).start, (closed file p).stop⟩

theorem closed_eq (hf : file.WellFormed) (hfence : file.Fenced) (hp : p ∈ found file) :
    closed file p = ⟨(plan file).back p.1.node.stop,
      (plan file).back p.1.node.stop + size (closeEdit file p).text.toList⟩ := by
  obtain ⟨ys, hys⟩ := insertions_stop hf hfence hp
  rw [← List.nil_append (closeEdit file p :: ys)] at hys
  exact (spread_plan hf).written_insertion (uncrossed hf hp).2 hys List.not_mem_nil

theorem opened_eq (hf : file.WellFormed) (hp : p ∈ found file) {xs ys : List Edit}
    (hxs : ∀ x ∈ xs, ∃ q, x = closeEdit file q)
    (hat : insertions (plan file) p.1.node.start = xs ++ openEdit file p :: ys) :
    opened file p = ⟨(plan file).back p.1.node.start + inserted xs,
      (plan file).back p.1.node.start + inserted xs + size (openEdit file p).text.toList⟩ := by
  refine (spread_plan hf).written_insertion (uncrossed hf hp).1 hat fun hmem => ?_
  obtain ⟨q, hq⟩ := hxs _ hmem
  exact openEdit_ne_closeEdit file p q hq

/-- The tags of a wrapper are in the new text, and so is the element with the edits within it. The
closing tag follows on the element, and the opening tag comes before it. -/
structure Tagged (file : SourceFile) (p : Found) : Prop where
  opens : slice ((plan file).apply file.text) (opened file p) = (openEdit file p).text
  closes : slice ((plan file).apply file.text) (closed file p) = (closeEdit file p).text
  own : ∃ part new, slice file.text p.1.node.span = String.ofList part ∧
    slice ((plan file).apply file.text) (inner file p) = String.ofList new ∧
    Replaced p.1.node.start part ((ordered (plan file)).filter (reaches p.1.node.span)) new
  before : (opened file p).stop ≤ (inner file p).start
  behind : (inner file p).stop = (closed file p).start

section
variable (hf : file.WellFormed) (hfence : file.Fenced)
include hf hfence

theorem tagged_of_mem_found (hp : p ∈ found file) : Tagged file p := by
  have hspread := spread_plan hf
  obtain ⟨-, hin, -⟩ := mem_found hf hp
  obtain ⟨hstart, hstop⟩ := uncrossed hf hp
  obtain ⟨hopen, hclose⟩ := mem_plan_of_found hf hp
  obtain ⟨xs, hxs, hat⟩ := insertions_start hf hfence hp
  refine ⟨hspread.slice_written hopen, hspread.slice_written hclose, ?_, ?_, ?_⟩
  · have hrange := (hf.aligned p.1.node hin.node).isRange (hf.nests p.1.node hin.node)
    obtain ⟨part, new, hpart, -, hnew, hreplaced⟩ := hspread.slice_image_of_reaches hrange
      (start_lt_stop hf hfence hp) fun ed hed hreach => by
        obtain ⟨hlast, hfirst⟩ := reaches_iff.mp hreach
        exact ⟨(hstart ed hed).resolve_left (Nat.not_le_of_lt hlast),
          (hstop ed hed).resolve_right (Nat.not_le_of_lt hfirst)⟩
    exact ⟨part, new, hpart, hnew, hreplaced⟩
  · have hfront := hspread.front_eq_back hstart
    rw [hat, inserted_append, inserted] at hfront
    rw [opened_eq hf hp hxs hat]
    change _ ≤ (plan file).front p.1.node.start
    dsimp only
    omega
  · rw [closed_eq hf hfence hp]
    rfl

/-- Where a wrapper begins is no earlier than what is before it. -/
theorem back_le_opened (hp : p ∈ found file) :
    (plan file).back p.1.node.start ≤ (opened file p).start := by
  obtain ⟨xs, hxs, hat⟩ := insertions_start hf hfence hp
  rw [opened_eq hf hp hxs hat]
  exact Nat.le_add_right _ _

theorem closed_le_front (hp : p ∈ found file) :
    (closed file p).stop ≤ (plan file).front p.1.node.stop := by
  obtain ⟨ys, hys⟩ := insertions_stop hf hfence hp
  have hfront := (spread_plan hf).front_eq_back (uncrossed hf hp).2
  rw [hys, inserted] at hfront
  rw [closed_eq hf hfence hp]
  dsimp only
  omega

/-- Of two wrappers the first ends before the second, or has the second around its element. -/
theorem wrappers_nested : (found file).Pairwise fun p q =>
    (wrapper file p).stop ≤ (wrapper file q).start ∨
      (wrapper file q).Within (inner file p) := by
  have hspread := spread_plan hf
  refine (found_pairwise hf hfence).imp_of_mem fun {p q} hp hq hahead => ?_
  have hstartp := uncrossed hf hp
  have hstartq := uncrossed hf hq
  have hclosed := closed_le_front hf hfence hp
  have hopened := back_le_opened hf hfence hq
  rcases hahead with hbefore | ⟨hstart, hstop⟩
  · refine .inl ?_
    rcases Nat.lt_or_eq_of_le hbefore with hlt | hpoint
    · exact hclosed.trans ((hspread.front_le_back hlt hstartp.2 hstartq.1).trans hopened)
    · -- one element begins where the other ends: its closing tag is the first insertion there
      obtain ⟨xs, hxs, hat⟩ := insertions_start hf hfence hq
      obtain ⟨ys, hys⟩ := insertions_stop hf hfence hp
      rw [← hpoint, hys] at hat
      change (closed file p).stop ≤ (opened file q).start
      cases xs with
      | nil => exact absurd (List.cons.inj hat).1.symm (openEdit_ne_closeEdit file q p)
      | cons x xs =>
        have hx := (List.cons.inj hat).1
        have hplace := opened_eq hf hq hxs (by rw [← hpoint, hys, hat])
        rw [closed_eq hf hfence hp, hplace, hpoint, ← hx, inserted]
        dsimp only
        omega
  · refine .inr ⟨(hspread.front_le_back hstart hstartp.1 hstartq.1).trans hopened, ?_⟩
    exact (closed_le_front hf hfence hq).trans (hspread.front_le_back hstop hstartq.2 hstartp.2)

/-- The opening tag is right before the element, the closing tag right behind it, and the
declaration of an import outside of both. -/
structure Encloses (file : SourceFile) (p : Found) : Prop extends Tagged file p where
  follows : (opened file p).stop = (inner file p).start
  outside : ∀ i ∈ imports file, ((plan file).written i).Apart (wrapper file p)

theorem opened_stop_iff (hp : p ∈ found file) : (opened file p).stop = (inner file p).start ↔
    ∀ i ∈ imports file, i.span ≠ ⟨p.1.node.start, p.1.node.start⟩ := by
  obtain ⟨xs, hxs, hat⟩ := insertions_start hf hfence hp
  have hfront := (spread_plan hf).front_eq_back (uncrossed hf hp).1
  rw [hat, inserted_append, inserted] at hfront
  rw [opened_eq hf hp hxs hat]
  change _ = (plan file).front p.1.node.start ↔ _
  have hnone : inserted (insertions (imports file) p.1.node.start) = 0 ↔
      ∀ i ∈ imports file, i.span ≠ ⟨p.1.node.start, p.1.node.start⟩ := by
    constructor
    · intro hzero i hi hspan
      have hmem : i ∈ insertions (imports file) p.1.node.start :=
        List.mem_filter.mpr ⟨hi, by simpa using hspan⟩
      obtain ⟨as, bs, hsplit⟩ := List.append_of_mem hmem
      rw [hsplit, inserted_append, inserted] at hzero
      exact (plain_imports i hi).ne_nil (eq_nil_of_size (by omega))
    · intro hno
      have hnil : insertions (imports file) p.1.node.start = [] :=
        List.filter_eq_nil_iff.mpr fun i hi => by simpa using hno i hi
      rw [hnil]
      rfl
  rw [← hnone]
  dsimp only
  omega

/-- An import's edit that is not at the beginning of a wrapped element is written outside of its
wrapper. -/
theorem import_outside (hp : p ∈ found file) {i : Edit} (hi : i ∈ imports file)
    (hne : i.span ≠ ⟨p.1.node.start, p.1.node.start⟩) :
    ((plan file).written i).Apart (wrapper file p) := by
  have hspread := spread_plan hf
  have hplan := mem_plan_of_mem_imports hi
  have hle := (hspread.fits i hplan).1
  obtain ⟨hstart, hstop⟩ := uncrossed hf hp
  rcases imports_apart hf hi hp with hbefore | hbehind
  · have hstop : i.span.stop ≤ p.1.node.start := hbefore
    have hlt : i.span.start < p.1.node.start := by
      refine Nat.lt_of_le_of_ne (hle.trans hstop) fun hpoint => hne ?_
      exact congrArg₂ Span.mk hpoint (Nat.le_antisymm hstop (hpoint ▸ hle))
    exact .inl ((hspread.written_before hstart hplan hlt).trans (back_le_opened hf hfence hp))
  · refine .inr ?_
    have hstart : p.1.node.stop ≤ i.span.start := hbehind
    change (closed file p).stop ≤ _
    rcases Nat.lt_or_eq_of_le (hstart.trans hle) with hlt | hpoint
    · exact (closed_le_front hf hfence hp).trans (hspread.written_behind hstop hplan hlt)
    · -- both are insertions behind the element, where the closing tag comes first
      have hspan : i.span = ⟨p.1.node.stop, p.1.node.stop⟩ :=
        congrArg₂ Span.mk (Nat.le_antisymm (hpoint ▸ hle) hstart) hpoint.symm
      have hmem : i ∈ insertions (plan file) p.1.node.stop :=
        List.mem_filter.mpr ⟨hplan, by simpa using hspan⟩
      obtain ⟨as, bs, hsplit, hnew⟩ := List.eq_append_cons_of_mem hmem
      obtain ⟨ys, hys⟩ := insertions_stop hf hfence hp
      rw [hspread.written_insertion hstop hsplit hnew, closed_eq hf hfence hp]
      rw [hys] at hsplit
      cases as with
      | nil => exact absurd (List.cons.inj hsplit).1.symm (ne_tag_of_mem_imports hi p).2
      | cons a as =>
        rw [← (List.cons.inj hsplit).1, inserted]
        dsimp only
        omega

/-- How the wrappers and the import stand in the new text. -/
structure Arranged (file : SourceFile) : Prop where
  tagged : ∀ p ∈ found file, Tagged file p
  /-- Wrappers are nested as their elements are, or come one behind the other. -/
  nested : (found file).Pairwise fun p q => (wrapper file p).stop ≤ (wrapper file q).start ∨
    (wrapper file q).Within (inner file p)
  imported : ∀ i ∈ imports file,
    slice ((plan file).apply file.text) ((plan file).written i) = i.text
  encloses_iff : ∀ p ∈ found file, Encloses file p ↔
    ∀ i ∈ imports file, i.span ≠ ⟨p.1.node.start, p.1.node.start⟩

/-- All tags of the wrappers and the import are in the new text, and the wrappers are nested. A
wrapper encloses just its element, with the import outside, exactly when the import's edit is not
an insertion where the element begins. -/
theorem arranged_of_fenced : Arranged file := by
  constructor
  case tagged => exact fun p hp => tagged_of_mem_found hf hfence hp
  case nested => exact wrappers_nested hf hfence
  case imported => exact fun i hi => (spread_plan hf).slice_written (mem_plan_of_mem_imports hi)
  case encloses_iff =>
    intro p hp
    constructor
    · intro h
      exact (opened_stop_iff hf hfence hp).mp h.follows
    · intro hne
      exact ⟨tagged_of_mem_found hf hfence hp, (opened_stop_iff hf hfence hp).mpr hne,
        fun i hi => import_outside hf hfence hp hi (hne i hi)⟩

end

/-- A section with nothing in front of it. -/
def bareSection : SourceFile := SourceFile.parse "<p class=\"py-8\">x</p>"

theorem bareSection_not_enclosed : bareSection.WellFormed ∧ bareSection.Fenced ∧
    (found bareSection).length = 1 ∧ ∀ p ∈ found bareSection, ¬Encloses bareSection p := by
  have hwf : bareSection.WellFormed := by decide +kernel
  have hfence : bareSection.Fenced := by decide +kernel
  have hat : ∀ p ∈ found bareSection, ∃ i ∈ imports bareSection,
      i.span = ⟨p.1.node.start, p.1.node.start⟩ := by decide +kernel
  refine ⟨hwf, hfence, by decide +kernel, fun p hp h => ?_⟩
  obtain ⟨i, hi, hspan⟩ := hat p hp
  exact ((arranged_of_fenced hwf hfence).encloses_iff p hp).mp h i hi hspan

/-- The declaration is put between the opening tag and the element, where it is no import. -/
theorem bareSection_import_inside :
    (plan bareSection).apply bareSection.text =
        "<Section size=\"sm\">\n  import \x7b Section \x7d " ++
        "from \"@/components/patterns\";\n\n<p>x</p>\n</Section>" ∧
      (SourceFile.parse ((plan bareSection).apply bareSection.text)).root.children.any
        (·.kind == .importStatement) = false := by
  have hplan : plan bareSection = [.delete ⟨2, 15⟩, .insert 0 "<Section size=\"sm\">\n  ",
      .insert 21 "\n</Section>",
      .insert 0 "import \x7b Section \x7d from \"@/components/patterns\";\n\n"] := by decide +kernel
  have hordered : ordered (plan bareSection) = [.insert 0 "<Section size=\"sm\">\n  ",
      .insert 0 "import \x7b Section \x7d from \"@/components/patterns\";\n\n",
      .delete ⟨2, 15⟩, .insert 21 "\n</Section>"] := by
    rw [hplan]
    exact ordered_eq (by decide) (by decide) (by decide)
  have happly : (plan bareSection).apply bareSection.text =
      "<Section size=\"sm\">\n  import \x7b Section \x7d " ++
        "from \"@/components/patterns\";\n\n<p>x</p>\n</Section>" := by
    rw [apply, hordered]
    decide +kernel
  rw [happly]
  exact ⟨by decide, by decide +kernel⟩

end TokenLint.Codemod.Layout
