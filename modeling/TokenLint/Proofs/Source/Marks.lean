import TokenLint.Proofs.Source.WellFormed

/-!
# What stands between marks

A literal has its marks around it, and a template has its interpolations between them. The static
text of a template is what is in front of the first interpolation, between two of them and behind
the last one: ranges of the text, in order, with an interpolation between each and the next.
-/
namespace TokenLint.Source.Node

/-- The marks of a literal stand around what it holds, and no interpolation and no name is empty. -/
structure Closed (n : Node) : Prop where
  string : n.kind = .string → n.start + 2 ≤ n.stop
  template : n.kind = .template → n.start + 2 ≤ n.stop ∧
    ∀ s ∈ n.substitutions, n.start < s.start ∧ s.start < s.stop ∧ s.stop < n.stop
  name : n.kind = .propertyName → n.start < n.stop

instance (n : Node) : Decidable n.Closed :=
  decidable_of_iff
    ((n.kind = .string → n.start + 2 ≤ n.stop) ∧
      (n.kind = .template → n.start + 2 ≤ n.stop ∧
        ∀ s ∈ n.substitutions, n.start < s.start ∧ s.start < s.stop ∧ s.stop < n.stop) ∧
      (n.kind = .propertyName → n.start < n.stop))
    ⟨fun ⟨a, b, c⟩ => ⟨a, b, c⟩, fun h => ⟨h.string, h.template, h.name⟩⟩

/-- The interpolations in order, inside a range. -/
structure Lined (ns : List Node) (start stop : Nat) : Prop where
  ordered : start ≤ stop
  within : ∀ n ∈ ns, start ≤ n.start ∧ n.start ≤ n.stop ∧ n.stop ≤ stop
  apart : ns.Pairwise fun a b => a.stop ≤ b.start

theorem Lined.tail {n : Node} {ns : List Node} {start stop : Nat} (h : Lined (n :: ns) start stop) :
    Lined ns n.stop stop where
  ordered := (h.within n List.mem_cons_self).2.2
  within m hm :=
    ⟨(List.pairwise_cons.mp h.apart).1 m hm, (h.within m (List.mem_cons_of_mem n hm)).2⟩
  apart := (List.pairwise_cons.mp h.apart).2

/-- The gaps between interpolations: each is in the range, begins and ends with it or at one of
them, and is apart from all of them. -/
theorem mem_gaps {ns : List Node} {start stop : Nat} (h : Lined ns start stop) {s : Span}
    (hs : s ∈ gaps stop start ns) : start ≤ s.start ∧ s.start ≤ s.stop ∧ s.stop ≤ stop ∧
      (s.start = start ∨ ∃ n ∈ ns, s.start = n.stop) ∧
      (s.stop = stop ∨ ∃ n ∈ ns, s.stop = n.start) ∧
      ∀ n ∈ ns, s.stop ≤ n.start ∨ n.stop ≤ s.start := by
  induction ns generalizing start with
  | nil =>
    obtain rfl := List.mem_singleton.mp hs
    have hmax : max stop start = stop := Nat.max_eq_left h.ordered
    exact ⟨Nat.le_refl _, Nat.le_max_right _ _, Nat.le_of_eq hmax, .inl rfl, .inl hmax,
      fun _ hn => absurd hn List.not_mem_nil⟩
  | cons n ns ih =>
    obtain ⟨hstart, hle, hstop⟩ := h.within n List.mem_cons_self
    rcases List.mem_cons.mp hs with rfl | hs
    · have hmax : max n.start start = n.start := Nat.max_eq_left hstart
      dsimp only
      rw [hmax]
      refine ⟨Nat.le_refl _, hstart, Nat.le_trans hle hstop, .inl rfl,
        .inr ⟨n, List.mem_cons_self, rfl⟩, fun m hm => .inl ?_⟩
      rcases List.mem_cons.mp hm with rfl | hm
      · exact Nat.le_refl _
      · exact Nat.le_trans hle (h.tail.within m hm).1
    · obtain ⟨hfirst, hordered, hlast, hbegin, hend, hapart⟩ := ih h.tail hs
      refine ⟨Nat.le_trans hstart (Nat.le_trans hle hfirst), hordered, hlast, .inr ?_, ?_, ?_⟩
      · rcases hbegin with hbegin | ⟨m, hm, hbegin⟩
        · exact ⟨n, List.mem_cons_self, hbegin⟩
        · exact ⟨m, List.mem_cons_of_mem n hm, hbegin⟩
      · exact hend.imp_right fun ⟨m, hm, h⟩ => ⟨m, List.mem_cons_of_mem n hm, h⟩
      · intro m hm
        rcases List.mem_cons.mp hm with rfl | hm
        · exact .inr hfirst
        · exact hapart m hm

/-- The gaps between interpolations that have moved, where their ends are still in order. -/
theorem gaps_move {f : Nat → Nat} {g : Node → Node} {ns : List Node} {start stop : Nat}
    (h : Lined ns start stop) (hg : ∀ n ∈ ns, (g n).start = f n.start ∧ (g n).stop = f n.stop)
    (hfirst : ∀ n ∈ ns, f start ≤ f n.start) (hordered : f start ≤ f stop)
    (hnext : ns.Pairwise fun a b => f a.stop ≤ f b.start) (hlast : ∀ n ∈ ns, f n.stop ≤ f stop) :
    gaps (f stop) (f start) (ns.map g) =
      (gaps stop start ns).map fun s => ⟨f s.start, f s.stop⟩ := by
  induction ns generalizing start with
  | nil => simp [gaps, Nat.max_eq_left h.ordered, Nat.max_eq_left hordered]
  | cons n ns ih =>
    obtain ⟨hgstart, hgstop⟩ := hg n List.mem_cons_self
    obtain ⟨hnext, hnexts⟩ := List.pairwise_cons.mp hnext
    have hmax : max n.start start = n.start :=
      Nat.max_eq_left (h.within n List.mem_cons_self).1
    have hmax' : max (f n.start) (f start) = f n.start :=
      Nat.max_eq_left (hfirst n List.mem_cons_self)
    rw [List.map_cons, gaps, gaps, List.map_cons, hgstart, hgstop, hmax, hmax',
      ih h.tail (fun m hm => hg m (List.mem_cons_of_mem n hm)) hnext (hlast n List.mem_cons_self)
        hnexts fun m hm => hlast m (List.mem_cons_of_mem n hm)]

/-- An interpolation that is not empty keeps the gaps at its two sides apart. -/
theorem pairwise_gaps {ns : List Node} {start stop : Nat} (h : Lined ns start stop)
    (hsome : ∀ n ∈ ns, n.start < n.stop) :
    (gaps stop start ns).Pairwise fun a b => a.stop < b.start := by
  induction ns generalizing start with
  | nil => exact List.pairwise_singleton _ _
  | cons n ns ih =>
    obtain ⟨hn, hns⟩ := List.forall_mem_cons.mp hsome
    have hmax : max n.start start = n.start := Nat.max_eq_left (h.within n List.mem_cons_self).1
    rw [gaps, hmax]
    refine List.pairwise_cons.mpr ⟨fun s hs => ?_, ih h.tail hns⟩
    exact Nat.lt_of_lt_of_le hn (mem_gaps h.tail hs).1

/-- Between marks of one byte each gap is a range of the text. -/
theorem isRange_of_mem_gaps {cs : List Char} {t : Node} {ns : List Node}
    (h : Lined ns (t.start + 1) (t.stop - 1)) (hk : t.kind = .template) (ht : t.Aligned cs)
    (hns : ∀ n ∈ ns, n.Aligned cs) {s : Span} (hs : s ∈ gaps (t.stop - 1) (t.start + 1) ns) :
    Text.IsRange cs s := by
  have hordered := h.ordered
  obtain ⟨hstart, hstop⟩ := ht.quoted (.inr hk) (by omega)
  obtain ⟨-, hle, -, hbegin, hend, -⟩ := mem_gaps h hs
  refine ⟨hle, ?_, ?_⟩
  · rcases hbegin with heq | ⟨n, hn, heq⟩
    · exact heq ▸ hstart
    · exact heq ▸ (hns n hn).stop
  · rcases hend with heq | ⟨n, hn, heq⟩
    · exact heq ▸ hstop
    · exact heq ▸ (hns n hn).start

/-! ### Literals with their marks -/

variable {n : Node}

theorem Closed.content (h : n.Closed) (hk : n.kind = .string) :
    n.content = ⟨n.start + 1, n.stop - 1⟩ := by
  have hmarks := h.string hk
  rw [Node.content, if_neg (by omega)]

/-- The interpolations of a template stand in order between its marks. -/
theorem Closed.lined (h : n.Closed) (hn : n.Nests) (hk : n.kind = .template) :
    Lined n.substitutions (n.start + 1) (n.stop - 1) := by
  obtain ⟨hmarks, hin⟩ := h.template hk
  refine ⟨by omega, fun s hs => ?_, hn.apart.filter _⟩
  have hs := hin s hs
  omega

end TokenLint.Source.Node
