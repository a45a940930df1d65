import Mathlib.Data.List.Forall2
import Mathlib.Data.List.TakeWhile
import TokenLint.Proofs.NamedImport.EachOnce

/-!
# Directives at the top

The first statements of a file may be directives, with comments before and between them. A new
declaration leaves them the first statements when it goes behind an import. In a file without
imports it goes behind the directives that come before any comment, so one that stands behind a
comment is a directive no longer.
-/
namespace TokenLint.NamedImport

open Source Text

/-- What stands at the top level, comments apart. -/
def statements (file : SourceFile) : List Node :=
  file.root.children.filter (!isKind .comment ·)

/-- The directives that a file begins with. -/
def directives (file : SourceFile) : List Node := (statements file).takeWhile isDirective

/-- A node of one file is in another: moved, and with the text of everything in it. -/
def Again (file file' : SourceFile) (n n' : Node) : Prop :=
  ∃ f, n.Kept file file' f ∧ n' = n.move f

/-- The directives of a file are the first statements of another. -/
def Lead (file file' : SourceFile) : Prop :=
  ∃ ds, List.Forall₂ (Again file file') (directives file) ds ∧ ds <+: statements file'

/-- A comment stands right before a directive, with nothing but comments and directives before
it. -/
def Interrupted (file : SourceFile) : Prop :=
  ∃ pre c d post, file.root.children = pre ++ c :: d :: post ∧
    (∀ x ∈ pre, x.kind = .comment ∨ isDirective x) ∧ c.kind = .comment ∧ isDirective d

section
variable {file : SourceFile} {module : String} {names : List String}

theorem not_isComment_of_isDirective {n : Node} (h : isDirective n = true) :
    (!isKind .comment n) = true := by
  rw [isDirective, Bool.and_eq_true] at h
  have hkind : n.kind = .expressionStatement := by simpa using h.1
  rw [isKind, hkind]
  rfl

theorem not_isDirective_of_isImport {n : Node} (h : isImport n = true) : isDirective n = false := by
  have hkind : n.kind = .importStatement := by simpa [isImport] using h
  rw [isDirective, hkind]
  rfl

/-! ### Where the directives end -/

theorem filter_takeWhile_isDirective (cs : List Node) :
    (cs.takeWhile isDirective).filter (!isKind .comment ·) = cs.takeWhile isDirective :=
  List.filter_eq_self.mpr fun _ hx => not_isComment_of_isDirective (List.mem_takeWhile_imp hx)

/-- The directives that come before any comment, and then those that come behind one. -/
theorem directives_eq (file : SourceFile) :
    directives file = file.root.children.takeWhile isDirective ++
      ((file.root.children.dropWhile isDirective).filter (!isKind .comment ·)).takeWhile
        isDirective := by
  have hall : ∀ x ∈ file.root.children.takeWhile isDirective, isDirective x = true :=
    fun _ hx => List.mem_takeWhile_imp hx
  conv_lhs =>
    rw [directives, statements,
      ← List.takeWhile_append_dropWhile (p := isDirective) (l := file.root.children),
      List.filter_append, filter_takeWhile_isDirective]
  exact List.takeWhile_append_of_pos hall

/-- A directive follows on comments, the last of which stands right before it. -/
theorem exists_last_comment {cs : List Node} (hhead : ∀ c ∈ cs.head?, isDirective c = false)
    (h : (cs.filter (!isKind .comment ·)).takeWhile isDirective ≠ []) :
    ∃ pre c d post, cs = pre ++ c :: d :: post ∧ (∀ x ∈ pre, x.kind = .comment) ∧
      c.kind = .comment ∧ isDirective d = true := by
  induction cs with
  | nil => exact absurd rfl h
  | cons c cs ih =>
    have hc : c.kind = .comment := by
      by_contra hne
      have hkeep : (!isKind .comment c) = true := by simpa [isKind] using hne
      rw [List.filter_cons_of_pos (p := fun x => !isKind .comment x) hkeep,
        List.takeWhile_cons, hhead c rfl] at h
      exact h rfl
    have hdrop : ¬(!isKind .comment c) = true := by simp [isKind, hc]
    rw [List.filter_cons_of_neg (p := fun x => !isKind .comment x) hdrop] at h
    cases cs with
    | nil => exact absurd rfl h
    | cons d cs =>
      by_cases hd : isDirective d = true
      · exact ⟨[], c, d, cs, rfl, by simp, hc, hd⟩
      · obtain ⟨pre, c', d', post, hcs, hpre, hc', hd'⟩ :=
          ih (fun x hx => by simpa [← Option.some.inj hx] using hd) h
        refine ⟨c :: pre, c', d', post, by rw [hcs]; rfl, fun x hx => ?_, hc', hd'⟩
        rcases List.mem_cons.mp hx with rfl | hx
        · exact hc
        · exact hpre x hx

/-- A directive at the top is interrupted just when some directive comes behind a comment. -/
theorem interrupted_iff (file : SourceFile) :
    Interrupted file ↔
      ((file.root.children.dropWhile isDirective).filter (!isKind .comment ·)).takeWhile
        isDirective ≠ [] := by
  constructor
  · rintro ⟨pre, c, d, post, hcs, hpre, hc, hd⟩ hnil
    have hnot : ¬isDirective c = true := fun h => by
      have hne := not_isComment_of_isDirective h
      simp [isKind, hc] at hne
    have hdrop : file.root.children.dropWhile isDirective =
        pre.dropWhile isDirective ++ c :: d :: post := by
      rw [hcs, List.dropWhile_append, List.dropWhile_cons_of_neg hnot]
      split
      case isTrue hempty => rw [List.isEmpty_iff.mp hempty, List.nil_append]
      case isFalse => rfl
    have hfront : ∀ x ∈ (pre.dropWhile isDirective).filter (!isKind .comment ·),
        isDirective x = true := by
      intro x hx
      obtain ⟨hmem, hkeep⟩ := List.mem_filter.mp hx
      refine (hpre x ((List.dropWhile_suffix _).subset hmem)).resolve_left fun hcomment => ?_
      simp [isKind, hcomment] at hkeep
    have hkeep := not_isComment_of_isDirective hd
    have hgone : ¬(!isKind .comment c) = true := by simp [isKind, hc]
    rw [hdrop, List.filter_append, List.filter_cons_of_neg (p := fun x => !isKind .comment x) hgone,
      List.filter_cons_of_pos (p := fun x => !isKind .comment x) hkeep,
      List.takeWhile_append_of_pos hfront, List.takeWhile_cons_of_pos hd] at hnil
    simp at hnil
  · intro h
    have hhead : ∀ c ∈ (file.root.children.dropWhile isDirective).head?, isDirective c = false := by
      intro c hc
      have hnot := List.head?_dropWhile_not isDirective file.root.children
      rw [Option.mem_def.mp hc] at hnot
      simpa using hnot
    obtain ⟨pre, c, d, post, hdrop, hpre, hc, hd⟩ := exists_last_comment hhead h
    refine ⟨file.root.children.takeWhile isDirective ++ pre, c, d, post, ?_, fun x hx => ?_, hc, hd⟩
    · rw [List.append_assoc, ← hdrop, List.takeWhile_append_dropWhile]
    · rcases List.mem_append.mp hx with hx | hx
      · exact .inr (List.mem_takeWhile_imp hx)
      · exact .inl (hpre x hx)

/-! ### Where a declaration goes -/

theorem stop_declarationAt (pos : Nat) (module : String) (names : List String) (ended : Bool) :
    (declarationAt pos module names ended).stop =
      pos + size (declaration module names ended).toList := by
  have hopen : size "import \x7b ".toList = 9 := rfl
  have hclose : size " \x7d from \"".toList = 9 := rfl
  have hquote : size "\"".toList = 1 := rfl
  have hend : size (if ended then ";" else "").toList = if ended then 1 else 0 := by
    cases ended <;> rfl
  simp only [declarationAt, bracesAt, Node.stop, declaration, String.toList_append, size_append,
    hopen, hclose, hquote, hend]
  omega

/-- The declaration stands in the revised file between the statements `pre` and `post`. -/
structure Declared (file : SourceFile) (module : String) (names : List String)
    (pre post : List Node) (pos : Nat) (ended : Bool) : Prop where
  before : file.root.children = pre ++ post
  written : At (revised file module names) pos (declaration module names ended)
  stays : ∀ x ∈ pre, x.Kept file (revised file module names) id ∧ x.stop ≤ pos
  after : (revised file module names).root.children =
    pre ++ declarationAt pos module names ended ::
      post.map (Node.move (declare file module names file.root.children).shift)
  moves : ∀ x ∈ post, x.Kept file (revised file module names)
      (declare file module names file.root.children).shift ∧
    (declarationAt pos module names ended).stop ≤
      (declare file module names file.root.children).shift x.start

theorem declared_of_insert (hf : file.WellFormed) (hnone : target? file module names = none)
    {pre post : List Node} {ended : Bool} (offset : Nat) (front back : String)
    (hedit : declare file module names file.root.children =
      .insert offset (front ++ (declaration module names ended ++ back)))
    (hbefore : file.root.children = pre ++ post)
    (hafter : ∀ e : Edit, revisedStatements file module names e =
      pre ++ declarationAt (offset + size front.toList) module names ended ::
        post.map (Node.move e.shift))
    (hpre : ∀ x ∈ pre, x.stop ≤ offset) (hpost : ∀ x ∈ post, offset ≤ x.start) :
    Declared file module names pre post (offset + size front.toList) ended := by
  have hensure := ensure_eq_declare hnone
  generalize he : declare file module names file.root.children = e at hedit hensure
  have hrevised := revised_of_edit hensure
  have hedited := edited_revised hf hensure
  have hat := hedited.text_at
  rw [hedit] at hat
  have hmem : ∀ x ∈ pre ++ post, x ∈ file.root.preorder := fun x hx =>
    Node.mem_preorder_of_mem_children (hbefore ▸ hx)
  refine ⟨hbefore, hat.append.2.append.1, fun x hx => ⟨?_, ?_⟩, ?_, fun x hx => ⟨?_, ?_⟩⟩
  · refine kept_before hf hedited.fits hedited.text (hmem x (List.mem_append_left _ hx)) ?_
    rw [hedit]
    exact hpre x hx
  · exact Nat.le_add_right_of_le (hpre x hx)
  · rw [hrevised, children_stretch, hafter, he]
  · rw [he]
    refine kept_behind hf hedited.fits hedited.text (hmem x (List.mem_append_right _ hx)) ?_
    rw [hedit]
    exact hpost x hx
  · have hle := hpost x hx
    rw [stop_declarationAt, he, hedit]
    simp only [Edit.shift, Edit.insert, String.toList_append, size_append]
    omega

/-- The children up to one end where it ends, and those behind it begin there or later. -/
theorem order_around {n l : Node} {pre post : List Node} (hn : n.Nests)
    (hcs : n.children = pre ++ l :: post) (hall : ∀ x ∈ n.children, x.start ≤ x.stop) :
    (∀ x ∈ pre ++ [l], x.stop ≤ l.stop) ∧ ∀ x ∈ post, l.stop ≤ x.start := by
  have hapart := hn.apart
  rw [hcs, List.pairwise_append] at hapart
  obtain ⟨-, hpost, hpre⟩ := hapart
  refine ⟨fun x hx => ?_, (List.pairwise_cons.mp hpost).1⟩
  rcases List.mem_append.mp hx with hx | hx
  · exact Nat.le_trans (hpre x hx l (.head _)) (hall l (by simp [hcs]))
  · rw [List.mem_singleton.mp hx]

/-- Where the file has imports, a declaration goes behind the last. -/
theorem exists_declared_of_imports (hf : file.WellFormed)
    (hnone : target? file module names = none) {last : Node}
    (hlast : (file.root.children.filter isImport).getLast? = some last)
    (hedit : declare file module names file.root.children =
      .insert last.stop ("\n" ++ declaration module names (isEnded file last))) :
    ∃ pre post pos ended, Declared file module names pre post pos ended ∧
      ∃ l ∈ pre, isImport l := by
  obtain ⟨hmem, himport⟩ := List.mem_filter.mp (List.mem_of_getLast? hlast)
  have hany : file.root.children.any isImport = true := List.any_eq_true.mpr ⟨last, hmem, himport⟩
  obtain ⟨pre, post, hcs, hsplice⟩ := exists_splice_lastOf hlast
  obtain ⟨hpre, hpost⟩ := order_around (hf.nests file.root (Node.mem_preorder_self _)) hcs
    fun x hx => (hf.nests x (Node.mem_preorder_of_mem_children hx)).ordered
  refine ⟨pre ++ [last], post, last.stop + 1, isEnded file last,
    declared_of_insert hf hnone last.stop "\n" "" ?_ ?_ (fun e => ?_) hpre hpost,
    last, by simp, himport⟩
  · rw [hedit, String.append_empty]
  · rw [hcs, List.append_assoc]
    rfl
  · rw [revisedStatements, hnone, Option.isSome_none, if_neg (by decide), if_pos hany, hsplice,
      List.append_assoc]
    rfl

/-- Where it has none, a declaration goes behind the directives that come before any comment. -/
theorem exists_declared_of_no_import (hf : file.WellFormed)
    (hnone : target? file module names = none)
    (hany : file.root.children.any isImport = false)
    (hplace : (∃ last, (file.root.children.takeWhile isDirective).getLast? = some last ∧
        declare file module names file.root.children =
          .insert last.stop ("\n\n" ++ declaration module names true)) ∨
      file.root.children.takeWhile isDirective = [] ∧
        declare file module names file.root.children =
          .insert 0 (declaration module names true ++ "\n\n")) :
    ∃ post pos ended,
      Declared file module names (file.root.children.takeWhile isDirective) post pos ended := by
  have hsplit := (List.takeWhile_append_dropWhile (p := isDirective)
    (l := file.root.children)).symm
  have hafter : ∀ e : Edit, revisedStatements file module names e =
      file.root.children.takeWhile isDirective ++
        declarationAt (((file.root.children.takeWhile isDirective).getLast?.map
          fun n => n.stop + 2).getD 0) module names true ::
        (file.root.children.dropWhile isDirective).map (Node.move e.shift) := by
    intro e
    rw [revisedStatements, hnone, Option.isSome_none, if_neg (by decide),
      if_neg (by rw [hany]; decide)]
  rcases hplace with ⟨last, hdirective, hedit⟩ | ⟨hnil, hedit⟩
  · obtain ⟨front, hfront⟩ := List.getLast?_eq_some_iff.mp hdirective
    have hcs : file.root.children = front ++ last :: file.root.children.dropWhile isDirective := by
      conv_lhs => rw [hsplit, hfront, List.append_assoc]
      rfl
    obtain ⟨hpre, hpost⟩ := order_around (hf.nests file.root (Node.mem_preorder_self _)) hcs
      fun x hx => (hf.nests x (Node.mem_preorder_of_mem_children hx)).ordered
    rw [← hfront] at hpre
    refine ⟨_, last.stop + 2, true, declared_of_insert hf hnone last.stop "\n\n" ""
      ?_ hsplit (fun e => ?_) hpre hpost⟩
    · rw [hedit, String.append_empty]
    · rw [hafter e, hdirective]
      rfl
  · refine ⟨_, 0, true, declared_of_insert hf hnone 0 "" "\n\n" ?_ hsplit (fun e => ?_)
      (by simp [hnil]) (fun _ _ => Nat.zero_le _)⟩
    · rw [hedit, String.empty_append]
    · rw [hafter e, hnil]
      rfl

/-- A declaration goes behind an import or, where there is none, behind the directives that come
before any comment. -/
theorem exists_declared (hf : file.WellFormed) (hnone : target? file module names = none) :
    ∃ pre post pos ended, Declared file module names pre post pos ended ∧
      ((∃ l ∈ pre, isImport l) ∨
        file.root.children.any isImport = false ∧
          pre = file.root.children.takeWhile isDirective) := by
  rcases declare_cases file module names file.root.children with
    ⟨last, hlast, hedit⟩ | ⟨hempty, hplace⟩
  · obtain ⟨pre, post, pos, ended, h, himport⟩ := exists_declared_of_imports hf hnone hlast hedit
    exact ⟨pre, post, pos, ended, h, .inl himport⟩
  · have hany : file.root.children.any isImport = false :=
      List.any_eq_false.mpr (List.filter_eq_nil_iff.mp hempty)
    obtain ⟨post, pos, ended, h⟩ := exists_declared_of_no_import hf hnone hany hplace
    exact ⟨_, post, pos, ended, h, .inr ⟨hany, rfl⟩⟩

/-- The top level of the revised file is in order. -/
theorem Declared.ordered {pre post : List Node} {pos : Nat} {ended : Bool} (hf : file.WellFormed)
    (h : Declared file module names pre post pos ended) :
    (revised file module names).root.children.Pairwise fun a b => a.stop ≤ b.start := by
  have hapart := (hf.nests file.root (Node.mem_preorder_self _)).apart
  rw [h.before, List.pairwise_append] at hapart
  have hstart : (declarationAt pos module names ended).start = pos := rfl
  have hlong : pos ≤ (declarationAt pos module names ended).stop := by
    rw [stop_declarationAt]
    exact Nat.le_add_right _ _
  rw [h.after, List.pairwise_append, List.pairwise_cons, List.pairwise_map]
  refine ⟨hapart.1, ⟨fun y hy => ?_, hapart.2.1.imp fun hxy => ?_⟩, fun x hx y hy => ?_⟩
  · obtain ⟨x, hx, rfl⟩ := List.mem_map.mp hy
    rw [Node.start_move]
    exact (h.moves x hx).2
  · rw [Node.stop_move, Node.start_move, Edit.shift, Edit.shift]
    omega
  · rcases List.mem_cons.mp hy with rfl | hy
    · exact (h.stays x hx).2
    · obtain ⟨z, hz, rfl⟩ := List.mem_map.mp hy
      rw [Node.start_move]
      exact (h.stays x hx).2.trans (hlong.trans (h.moves z hz).2)

/-- What comes before a declaration is again the beginning of the file. -/
theorem Declared.lead {pre post : List Node} {pos : Nat} {ended : Bool}
    (h : Declared file module names pre post pos ended)
    (hdirectives : directives file <+: pre.filter (!isKind .comment ·)) :
    Lead file (revised file module names) := by
  refine ⟨directives file, List.forall₂_same.mpr fun d hd => ?_, hdirectives.trans ?_⟩
  · have hmem := (List.mem_filter.mp (hdirectives.subset hd)).1
    exact ⟨id, (h.stays d hmem).1, (Node.move_id d).symm⟩
  · rw [statements, h.after, List.filter_append]
    exact List.prefix_append _ _

/-- Directives that a declaration comes before are not the first statements any more. -/
theorem Declared.not_lead {pre post ds : List Node} {pos : Nat} {ended : Bool}
    (h : Declared file module names pre post pos ended)
    (hdirectives : directives file = pre.filter (!isKind .comment ·) ++ ds) (hne : ds ≠ []) :
    ¬Lead file (revised file module names) := by
  rintro ⟨ds', hagain, hprefix⟩
  obtain ⟨d, ds, rfl⟩ := List.exists_cons_of_ne_nil hne
  have hkinds : (directives file).map Node.kind = ds'.map Node.kind := by
    rw [← List.forall₂_eq_eq_eq, List.forall₂_map_left_iff, List.forall₂_map_right_iff]
    refine hagain.imp ?_
    rintro a _ ⟨f, -, rfl⟩
    rw [Node.kind_move]
  have hmem : d ∈ directives file := by simp [hdirectives]
  have hd : isDirective d = true := List.mem_takeWhile_imp hmem
  have hkept : (!isKind .comment (declarationAt pos module names ended)) = true := rfl
  -- the statement in the place of this directive is the declaration
  have hkind := hprefix.map Node.kind
  rw [← hkinds, hdirectives, statements, h.after, List.filter_append,
    List.filter_cons_of_pos (p := fun x => !isKind .comment x) hkept, List.map_append,
    List.map_append, List.prefix_append_right_inj, List.map_cons, List.map_cons,
    List.cons_prefix_cons] at hkind
  have himport : isImport d = true := by
    rw [isImport, hkind.1]
    rfl
  rw [not_isDirective_of_isImport himport] at hd
  cases hd

/-- The directives at the top are the first statements afterwards exactly when there was an import
to go behind or no comment to stop at. -/
theorem lead_revised_iff (hf : file.WellFormed) (hnone : target? file module names = none) :
    Lead file (revised file module names) ↔
      file.root.children.any isImport = true ∨ ¬Interrupted file := by
  obtain ⟨pre, post, pos, ended, h, hplace⟩ := exists_declared hf hnone
  rcases hplace with ⟨l, hl, himport⟩ | ⟨hany, hpre⟩
  · have hany : file.root.children.any isImport = true :=
      List.any_eq_true.mpr ⟨l, by rw [h.before]; exact List.mem_append_left _ hl, himport⟩
    refine iff_of_true (h.lead ?_) (.inl hany)
    have hkind : l.kind = .importStatement := by simpa [isImport] using himport
    have hmem : l ∈ pre.filter (!isKind .comment ·) :=
      List.mem_filter.mpr ⟨hl, by simp [isKind, hkind]⟩
    have hstops : ((pre.filter (!isKind .comment ·)).takeWhile isDirective).length ≠
        (pre.filter (!isKind .comment ·)).length := by
      intro hlen
      have hall := (List.takeWhile_prefix isDirective).eq_of_length hlen
      rw [← hall] at hmem
      have hdirective := List.mem_takeWhile_imp hmem
      rw [not_isDirective_of_isImport himport] at hdirective
      cases hdirective
    rw [directives, statements, h.before, List.filter_append, List.takeWhile_append, if_neg hstops]
    exact List.takeWhile_prefix _
  · have hkept : pre.filter (!isKind .comment ·) = pre := by
      rw [hpre]
      exact filter_takeWhile_isDirective _
    have hdirectives := directives_eq file
    rw [hany, interrupted_iff]
    generalize ((file.root.children.dropWhile isDirective).filter
      (!isKind .comment ·)).takeWhile isDirective = behind at hdirectives ⊢
    rw [← hpre, ← hkept] at hdirectives
    by_cases hnil : behind = []
    · rw [hnil, List.append_nil] at hdirectives
      exact iff_of_true (h.lead (hdirectives ▸ List.prefix_refl _)) (.inr (by simp [hnil]))
    · exact iff_of_false (h.not_lead hdirectives hnil) (by simp [hnil])

/-- A declaration is added to a file. -/
structure Declares (file : SourceFile) (module : String) (names : List String) : Prop where
  ensure_eq : ensure file module names = [declare file module names file.root.children]
  /-- It is between two of the top-level nodes. -/
  between : ∃ pre post pos ended, Declared file module names pre post pos ended
  ordered : (revised file module names).root.children.Pairwise fun a b => a.stop ≤ b.start
  lead_iff : Lead file (revised file module names) ↔
    file.root.children.any isImport = true ∨ ¬Interrupted file

/-- Where a declaration is added, the file has it between two of its top-level nodes, and keeps
those in order. The directives that it began with are its first statements still exactly when it
has imports, or no comment stands right before one of the directives. -/
theorem directives_lead_iff (hf : file.WellFormed) (hnone : target? file module names = none) :
    Declares file module names := by
  obtain ⟨pre, post, pos, ended, h, -⟩ := exists_declared hf hnone
  exact ⟨ensure_eq_declare hnone, ⟨pre, post, pos, ended, h⟩, h.ordered hf,
    lead_revised_iff hf hnone⟩

end

/-- A comment, and a directive behind it. -/
def headed : SourceFile := SourceFile.parse "// c\n\"use client\"; f()"

theorem headed_not_lead : headed.WellFormed ∧ target? headed "m" ["a"] = none ∧
    Interrupted headed ∧ headed.root.children.any isImport = false ∧
    ¬Lead headed (revised headed "m" ["a"]) := by
  have hwf : headed.WellFormed := by decide +kernel
  have hnone : target? headed "m" ["a"] = none := Option.isNone_iff_eq_none.mp (by decide +kernel)
  have hany : headed.root.children.any isImport = false := by decide +kernel
  have hinterrupted : Interrupted headed := by
    rw [interrupted_iff, ne_eq, ← List.isEmpty_iff]
    decide +kernel
  refine ⟨hwf, hnone, hinterrupted, hany, fun hlead => ?_⟩
  rcases (directives_lead_iff hwf hnone).lead_iff.mp hlead with himport | hnot
  · rw [hany] at himport
    cases himport
  · exact hnot hinterrupted

/-- The declaration is put in front of the comment, so the directive is the second statement. -/
theorem headed_directive_second :
    (statements headed).map isDirective = [true, false] ∧
      (statements (SourceFile.parse ((ensure headed "m" ["a"]).apply headed.text))).map
        isDirective = [false, true, false] := by
  decide +kernel

end TokenLint.NamedImport
