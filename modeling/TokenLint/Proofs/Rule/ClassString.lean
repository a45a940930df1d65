import TokenLint.Proofs.Source.Annotate

/-!
# Class strings of an expression with comments put in

What is read of an expression is made up of what is read of some of its children. So two trees that
differ in comments and places read alike, if their literals and names do, and where a comment comes
first in parentheses nothing is read of them.
-/
namespace TokenLint.Source.Node

variable {isHelper isHelper' : Span → Bool}

theorem firstClassSpans_eq (ns : List Node) :
    firstClassSpans isHelper ns = (ns.head?.map (classSpans isHelper)).getD [] := by
  cases ns <;> rfl

theorem allClassSpans_eq (ns : List Node) :
    allClassSpans isHelper ns = ns.flatMap (classSpans isHelper) := by
  induction ns with
  | nil => rfl
  | cons n ns ih => rw [allClassSpans, ih, List.flatMap_cons]

theorem roleClassSpans_eq (a b : Role) (ns : List Node) : roleClassSpans isHelper a b ns =
    ns.flatMap fun n => if n.role == a || n.role == b then n.classSpans isHelper else [] := by
  induction ns with
  | nil => rfl
  | cons n ns ih => rw [roleClassSpans, ih, List.flatMap_cons]

theorem argumentClassSpans_eq (ns : List Node) : argumentClassSpans isHelper ns =
    ns.flatMap fun n =>
      if n.role == .arguments then n.children.flatMap (classSpans isHelper) else [] := by
  induction ns with
  | nil => rfl
  | cons n ns ih =>
    cases n
    rw [argumentClassSpans, ih, List.flatMap_cons, allClassSpans_eq]
    rfl

/-- The class strings of an expression are those of some of its children, by its shape. -/
theorem classSpans_eq (n : Node) : n.classSpans isHelper =
    if n.kind == .parenthesized then (n.children.head?.map (classSpans isHelper)).getD []
    else match n.bareShape with
      | .string => [n.content]
      | .template => n.quasis
      | .array => n.children.flatMap (classSpans isHelper)
      | .object => n.children.flatMap fun c => c.trueKey?.toList
      | .call =>
        if (n.child? .callee).any fun f => isHelper f.span then
          n.children.flatMap fun c =>
            if c.role == .arguments then c.children.flatMap (classSpans isHelper) else []
        else []
      | .ternary => n.children.flatMap fun c =>
          if c.role == .consequence || c.role == .alternative then c.classSpans isHelper else []
      | .concat | .logical => n.children.flatMap fun c =>
          if c.role == .left || c.role == .right then c.classSpans isHelper else []
      | .other => [] := by
  cases n
  rw [classSpans, firstClassSpans_eq, allClassSpans_eq, argumentClassSpans_eq, roleClassSpans_eq,
    roleClassSpans_eq, List.filterMap_eq_flatMap_toList]
  rfl

/-- Nothing is read of a comment. -/
theorem classSpans_of_comment {n : Node} (h : n.kind = .comment) : n.classSpans isHelper = [] := by
  have hshape : n.bareShape = .other := by simp only [bareShape, h]
  rw [classSpans_eq, hshape, h]
  rfl

/-! ### Shapes -/

variable {marked marked' : Node → Bool} {p p' : Places} {n : Node}

theorem isSome_child?_annotate (hk : n.kind ≠ .jsxAttribute) {r : Role} (hr : r ≠ .item) :
    ((n.annotate marked p).child? r).isSome = (n.child? r).isSome := by
  rw [child?_annotate hk hr, Option.isSome_map]

theorem any_child?_annotate (hk : n.kind ≠ .jsxAttribute) {r : Role} (hr : r ≠ .item) (k : Kind) :
    ((n.annotate marked p).child? r).any (·.kind == k) = (n.child? r).any (·.kind == k) := by
  rw [child?_annotate hk hr]
  cases n.child? r <;> simp

/-- Comments and places do not matter to the shape of an expression. -/
theorem bareShape_annotate (n : Node) : (n.annotate marked p).bareShape = n.bareShape := by
  by_cases hk : n.kind = .jsxAttribute
  · simp only [bareShape, kind_annotate, hk]
  · unfold bareShape
    rw [kind_annotate, any_child?_annotate hk (by decide), any_child?_annotate hk (by decide),
      isSome_child?_annotate hk (by decide), isSome_child?_annotate hk (by decide),
      isSome_child?_annotate hk (by decide), isSome_child?_annotate hk (by decide)]

theorem kind_ne_of_bareShape (h : n.bareShape ≠ .other) : n.kind ≠ .jsxAttribute := by
  intro hk
  refine h ?_
  simp only [bareShape, hk]

theorem bareShape_eq_string (h : n.bareShape = .string) : n.kind = .string := by
  unfold bareShape at h
  split at h
  · assumption
  all_goals grind

theorem bareShape_eq_template (h : n.bareShape = .template) : n.kind = .template := by
  unfold bareShape at h
  split at h
  case h_2 => assumption
  all_goals grind

/-- A call with a shape of its own is that of a plain name. -/
theorem bareShape_eq_call (h : n.bareShape = .call) :
    ∃ f, n.child? .callee = some f ∧ f.kind = .identifier := by
  unfold bareShape at h
  split at h
  case h_5 =>
    cases hf : n.child? .callee with
    | none => simp [hf] at h
    | some f =>
      rw [hf] at h
      refine ⟨f, rfl, ?_⟩
      by_contra hne
      simp [hne] at h
  all_goals grind

/-! ### Class strings of two trees -/

/-- A relation of what is read in two trees that is kept when more is read. -/
structure Joins (R : List Span → List Span → Prop) : Prop where
  nil : R [] []
  append {a a' b b' : List Span} : R a a' → R b b' → R (a ++ b) (a' ++ b')

theorem Joins.flatMap {R : List Span → List Span → Prop} (hR : Joins R) {ns : List Node}
    {f g : Node → List Span} (h : ∀ n ∈ ns, R (f n) (g n)) : R (ns.flatMap f) (ns.flatMap g) := by
  induction ns with
  | nil => exact hR.nil
  | cons n ns ih =>
    obtain ⟨hn, hns⟩ := List.forall_mem_cons.mp h
    rw [List.flatMap_cons, List.flatMap_cons]
    exact hR.append hn (ih hns)

/-- The texts of a node itself read alike in the two trees that come of it. -/
structure Alike (R : List Span → List Span → Prop) (isHelper isHelper' : Span → Bool)
    (n a b : Node) : Prop where
  helper : n.kind = .identifier → isHelper a.span = isHelper' b.span
  string : n.kind = .string → R [a.content] [b.content]
  template : n.kind = .template → R a.quasis b.quasis
  name : n.kind = .propertyName → R [a.span] [b.span]

section
variable {R : List Span → List Span → Prop} (hR : Joins R)
include hR

theorem trueKey?_annotate (hn : ∀ c ∈ n.children,
      Alike R isHelper isHelper' c (c.annotate marked p) (c.annotate marked' p')) :
    R (n.annotate marked p).trueKey?.toList (n.annotate marked' p').trueKey?.toList := by
  unfold trueKey?
  rw [kind_annotate, kind_annotate]
  split
  · exact hR.nil
  · rename_i hpair
    have hk : n.kind ≠ .jsxAttribute := fun hk => hpair (by rw [hk]; rfl)
    rw [child?_annotate hk (by decide), child?_annotate hk (by decide),
      child?_annotate hk (by decide), child?_annotate hk (by decide)]
    cases hkey : n.child? .key with
    | none => exact hR.nil
    | some key =>
      cases n.child? .value with
      | none => exact hR.nil
      | some value =>
        have hmem : key ∈ n.children := List.mem_of_find?_eq_some hkey
        simp only [Option.map_some, Option.bind_eq_bind, Option.bind_some, kind_annotate]
        split
        · exact hR.nil
        · split
          · rename_i hstring
            exact (hn key hmem).string (by simpa using hstring)
          · split
            · rename_i hname
              exact (hn key hmem).name (by simpa using hname)
            · exact hR.nil

section
variable (hless : ∀ c : Node, c.leads marked' → c.leads marked)
  (hcut : ∀ c : Node, c.leads marked → c.leads marked' = false → ∀ spans, R [] spans)
include hless hcut

/-- Of a node that may have a comment in its place nothing is read where it has one. -/
theorem classSpans_unless (c : Node) (begun : Bool) {x x' y y' : Node}
    (hx : x.classSpans isHelper = []) (hy : y.classSpans isHelper' = [])
    (h : R (x'.classSpans isHelper) (y'.classSpans isHelper')) :
    R ((if c.leads marked && begun then x else x').classSpans isHelper)
      ((if c.leads marked' && begun then y else y').classSpans isHelper') := by
  cases begun with
  | false => simpa using h
  | true =>
    cases hlead : c.leads marked with
    | false =>
      cases hlead' : c.leads marked' with
      | false => simpa using h
      | true => exact absurd (hless c hlead') (by simp [hlead])
    | true =>
      cases hlead' : c.leads marked' with
      | false => simpa [hx] using hcut c hlead hlead' _
      | true => simpa [hx, hy] using hR.nil

section
variable (hn : ∀ c ∈ n.children, R ((c.annotate marked p).classSpans isHelper)
  ((c.annotate marked' p').classSpans isHelper'))
include hn

theorem classSpans_children :
    R ((n.annotate marked p).children.flatMap (classSpans isHelper))
      ((n.annotate marked' p').children.flatMap (classSpans isHelper')) := by
  by_cases hk : n.kind = .jsxAttribute
  · rw [children_annotate_attribute hk, children_annotate_attribute hk, List.flatMap_map,
      List.flatMap_map]
    have hbraced : ∀ (isHelper : Span → Bool) (p : Places) (c c' : Node),
        (braced p c c').classSpans isHelper = [] := fun _ _ _ _ => rfl
    refine hR.flatMap fun c hc => ?_
    simpa using classSpans_unless hR hless hcut c true (hbraced _ _ _ _)
      (hbraced _ _ _ _) (hn c hc)
  · rw [flatMap_children_annotate hk _ fun _ => classSpans_of_comment rfl,
      flatMap_children_annotate hk _ fun _ => classSpans_of_comment rfl]
    exact hR.flatMap hn

theorem classSpans_parenthesized (hk : n.kind ≠ .jsxAttribute) :
    R (((n.annotate marked p).children.head?.map (classSpans isHelper)).getD [])
      (((n.annotate marked' p').children.head?.map (classSpans isHelper')).getD []) := by
  rw [head?_children_annotate hk, head?_children_annotate hk]
  cases hhead : n.children.head? with
  | none => exact hR.nil
  | some c =>
    exact classSpans_unless hR hless hcut c _ (classSpans_of_comment rfl)
      (classSpans_of_comment rfl) (hn c (List.mem_of_head? hhead))

omit hless hcut in
theorem classSpans_roles (hk : n.kind ≠ .jsxAttribute) {a b : Role} (ha : a ≠ .item)
    (hb : b ≠ .item) :
    R ((n.annotate marked p).children.flatMap fun c =>
        if c.role == a || c.role == b then c.classSpans isHelper else [])
      ((n.annotate marked' p').children.flatMap fun c =>
        if c.role == a || c.role == b then c.classSpans isHelper' else []) := by
  have hnote : ∀ (p : Places) (c : Node),
      ¬((note p c).role == a || (note p c).role == b) = true := fun p c => by
    simpa [note, role] using ⟨ha.symm, hb.symm⟩
  rw [flatMap_children_annotate hk _ fun c => if_neg (hnote p c),
    flatMap_children_annotate hk _ fun c => if_neg (hnote p' c)]
  refine hR.flatMap fun c hc => ?_
  rw [role_annotate, role_annotate]
  split
  · exact hn c hc
  · exact hR.nil

end

theorem classSpans_arguments (hk : n.kind ≠ .jsxAttribute)
    (hn : ∀ c ∈ n.children, ∀ d ∈ c.children, R ((d.annotate marked p).classSpans isHelper)
      ((d.annotate marked' p').classSpans isHelper')) :
    R ((n.annotate marked p).children.flatMap fun c =>
        if c.role == .arguments then c.children.flatMap (classSpans isHelper) else [])
      ((n.annotate marked' p').children.flatMap fun c =>
        if c.role == .arguments then c.children.flatMap (classSpans isHelper') else []) := by
  rw [flatMap_children_annotate hk _ fun _ => rfl, flatMap_children_annotate hk _ fun _ => rfl]
  refine hR.flatMap fun c hc => ?_
  rw [role_annotate, role_annotate]
  split
  · exact classSpans_children hR hless hcut (hn c hc)
  · exact hR.nil

/-- What is read of an expression with comments put in, and of the same expression with others,
where a comment is only missing in the second if it does not matter that more is read. -/
theorem classSpans_annotate (hn : ∀ m ∈ n.preorder,
      Alike R isHelper isHelper' m (m.annotate marked p) (m.annotate marked' p')) :
    R ((n.annotate marked p).classSpans isHelper)
      ((n.annotate marked' p').classSpans isHelper') := by
  -- the arguments of a call are two levels down, so the induction is on all nodes below
  induction n using inside_induction with
  | step n ih =>
    have hbelow : ∀ m ∈ n.inside, R ((m.annotate marked p).classSpans isHelper)
        ((m.annotate marked' p').classSpans isHelper') := fun m hm =>
      ih m hm fun l hl => hn l (mem_preorder_trans (mem_preorder.mpr (.inr hm)) hl)
    have hchildren := fun c hc => hbelow c (mem_inside_of_mem_children hc)
    have hself := hn n (mem_preorder_self n)
    rw [classSpans_eq, classSpans_eq, kind_annotate, kind_annotate]
    split
    · rename_i hparens
      have hk : n.kind ≠ .jsxAttribute := fun hk => by simp [hk] at hparens
      exact classSpans_parenthesized hR hless hcut hchildren hk
    · rw [bareShape_annotate, bareShape_annotate]
      have hk : n.bareShape ≠ .other → n.kind ≠ .jsxAttribute := kind_ne_of_bareShape
      cases hshape : n.bareShape with
      | other => exact hR.nil
      | string => exact hself.string (bareShape_eq_string hshape)
      | template => exact hself.template (bareShape_eq_template hshape)
      | array => exact classSpans_children hR hless hcut hchildren
      | object =>
        have hk := hk (by simp [hshape])
        dsimp only
        rw [flatMap_children_annotate hk _ fun _ => rfl,
          flatMap_children_annotate hk _ fun _ => rfl]
        exact hR.flatMap fun c hc => trueKey?_annotate hR fun d hd =>
          hn d (mem_preorder_child (mem_preorder_of_mem_children hc) hd)
      | call =>
        have hk := hk (by simp [hshape])
        obtain ⟨f, hf, hname⟩ := bareShape_eq_call hshape
        have hmem := mem_preorder_of_mem_children (List.mem_of_find?_eq_some hf)
        dsimp only
        rw [child?_annotate hk (by decide), child?_annotate hk (by decide), hf, Option.map_some,
          Option.map_some, Option.any_some, Option.any_some, (hn f hmem).helper hname]
        split
        · exact classSpans_arguments hR hless hcut hk fun c hc d hd =>
            hbelow d (mem_inside.mpr ⟨c, hc, mem_preorder_of_mem_children hd⟩)
        · exact hR.nil
      | ternary | concat | logical =>
        exact classSpans_roles hR hchildren (hk (by simp [hshape])) (by decide) (by decide)

end
end

/-! ### One tree read before and after -/

theorem content_still (n : Node) : (n.annotate marked .still).content = n.content := by
  rw [content, start_annotate, stop_annotate]
  rfl

theorem gaps_map {f : Node → Node} (hf : ∀ n, (f n).span = n.span) (ns : List Node)
    (stop start : Nat) : gaps stop start (ns.map f) = gaps stop start ns := by
  induction ns generalizing start with
  | nil => rfl
  | cons n ns ih =>
    obtain ⟨hstart, hstop⟩ : (f n).start = n.start ∧ (f n).stop = n.stop := by
      simpa [span] using hf n
    rw [List.map_cons, gaps, gaps, hstart, hstop, ih]

theorem quasis_still (hk : n.kind = .template) : (n.annotate marked .still).quasis = n.quasis := by
  have hne : n.kind ≠ .jsxAttribute := by simp [hk]
  rw [quasis, substitutions_annotate hne, gaps_map span_annotate, start_annotate, stop_annotate]
  rfl

theorem joins_sublist : Joins (List.Sublist : List Span → List Span → Prop) :=
  ⟨.slnil, List.Sublist.append⟩

/-- Where nothing moves a node reads as it did. -/
theorem alike_still (n : Node) : Alike List.Sublist isHelper isHelper n (n.annotate marked .still)
    (n.annotate marked' .still) where
  helper _ := by rw [span_annotate, span_annotate]
  string _ := by rw [content_still, content_still]
  template hk := by rw [quasis_still hk, quasis_still hk]
  name _ := by rw [span_annotate, span_annotate]

theorem joins_map (read read' : Span → String) :
    Joins fun a b => a.map read' = b.map read where
  nil := rfl
  append ha hb := by rw [List.map_append, List.map_append, ha, hb]

end TokenLint.Source.Node
