import TokenLint.Proofs.NamedImport.Binding
import TokenLint.Proofs.Source.Yields

/-!
# What an import is from

In the tree of every text what an import is from is a string.
-/
namespace TokenLint.NamedImport

open Source Grammar Reader

/-- A child that an import is from is a string. -/
def IsQuoted (n : Node) : Prop := n.role = .source → n.kind = .string

/-- An import is from strings. -/
def FromQuoted (n : Node) : Prop := n.kind = .importStatement → ∀ m ∈ n.children, IsQuoted m

theorem isQuoted_comment (n : Node) (_ : n.kind = .comment) (h : n.role = .item) : IsQuoted n := by
  intro hsource
  rw [h] at hsource
  cases hsource

theorem yieldsAll_item (p : Reader Node) : YieldsAll IsQuoted (child .item p) := by
  refine yieldsAll_child isQuoted_comment ((yields_true p).mono fun n _ hsource => ?_)
  cases n
  cases hsource

theorem yieldsAll_source : YieldsAll IsQuoted (child .source quoted) := by
  refine yieldsAll_child isQuoted_comment ((yields_kind_node .string _).mono fun n hn _ => ?_)
  cases n
  exact hn

theorem yields_importStatement (g : Grammar) : Yields FromQuoted (importStatement g) := by
  have hword := yieldsAll_token isQuoted_comment
  have hmarker := yieldsAll_item (node .typeMarker (keywordOf ["type", "typeof"]))
  have hbound : YieldsAll IsQuoted
      (seq [child .item importClause, keyword "from", child .source quoted]) := by
    refine yieldsAll_seq ?_
    simp only [List.forall_mem_cons]
    exact ⟨yieldsAll_item _, hword _, yieldsAll_source, by simp⟩
  have hrequired := yieldsAll_item (group
    [child .item identifier, punct '=', keyword "require", punct '(', child .source quoted,
      punct ')'])
  have hattributes : YieldsAll IsQuoted
      (opt (seq [keywordOf ["with", "assert"], child .item (object g)])) := by
    refine (yieldsAll_seq ?_).opt
    simp only [List.forall_mem_cons]
    exact ⟨hword _, yieldsAll_item _, by simp⟩
  have hmarked := hmarker.pair (hbound.orElse hrequired)
  refine (yields_node .importStatement (yieldsAll_seq ?_)).mono fun _ h _ => h.2.2
  simp only [List.forall_mem_cons]
  refine ⟨hword _, ?_, hattributes, yieldsAll_semicolon isQuoted_comment, by simp⟩
  exact hmarked.orElse (hbound.orElse (hrequired.orElse yieldsAll_source))

theorem yields_other {k : Kind} (h : k ≠ .importStatement) (p : Reader (List Node)) :
    Yields FromQuoted (node k p) :=
  (yields_kind_node k p).mono fun _ hn himport => absurd (hn.symm.trans himport) h

theorem yields_group (parts : List (Reader (List Node))) : Yields FromQuoted (group parts) :=
  yields_other (by decide) _

section
variable (g : Grammar)

theorem yields_declarationStatement : Yields FromQuoted (declarationStatement g) := by
  have hdeclared : Yields FromQuoted (declarationUpTo g .plain semicolon) :=
    yields_other (by decide) _
  exact (yields_group _).orElse (hdeclared.orElse ((yields_group _).orElse ((yields_group _).orElse
    ((yields_group _).orElse ((yields_group _).orElse (yields_group _))))))

theorem yields_expressionStatement : Yields FromQuoted (expressionStatement g) :=
  yields_other (by decide) _

theorem yields_ofWord (w : String) : Yields FromQuoted (ofWord g w) := by
  have hexpression := yields_expressionStatement g
  have hlabelled : Yields FromQuoted (labelled g) := yields_group _
  have hambient : Yields FromQuoted (ambient g) := yields_group _
  have halias : Yields FromQuoted importAlias := yields_group _
  have hexport : Yields FromQuoted (exportStatement g) := yields_other (by decide) _
  have himport := yields_importStatement g
  have hdeclaration := yields_declarationStatement g
  unfold ofWord
  split
  all_goals first
    | with_reducible exact hdeclaration.orElse (hlabelled.orElse hexpression)
    | with_reducible exact himport.orElse (halias.orElse hexpression)
    | with_reducible exact hambient.orElse (hlabelled.orElse hexpression)
    | with_reducible exact hlabelled.orElse hexpression
    | with_reducible exact hexport
    | exact yields_group _

theorem yields_statement : Yields FromQuoted (statement g) := by
  have hexport : Yields FromQuoted (exportStatement g) := yields_other (by decide) _
  have hclass : Yields FromQuoted (classExpression g) := yields_group _
  refine (yields_true _).bind fun c _ => ?_
  cases c with
  | none => exact yields_failure
  | some c =>
    dsimp only
    split
    · exact yields_group _
    · split
      · exact yields_group _
      · split
        · exact hexport.orElse hclass
        · split
          · exact (yields_true _).bind fun w _ => yields_ofWord g w
          · exact yields_expressionStatement g

theorem fromQuoted_comment (n : Node) (h : n.kind = .comment) (_ : n.role = .item) :
    FromQuoted n := by
  intro himport
  rw [h] at himport
  cases himport

theorem yieldsAll_program (depth : Nat) :
    YieldsAll FromQuoted (program (Grammar.upTo (depth + 1))) := by
  have hfirst : YieldsAll FromQuoted (opt interpreterLine) := by
    refine YieldsAll.opt ((yields_other (by decide) _).bind fun n hn => yields_pure ?_)
    simpa using hn
  refine hfirst.bind fun first hfirst =>
    (YieldsAll.many (P := FromQuoted) ?_).bind fun body hbody =>
    (yieldsAll_trivia fromQuoted_comment).bind fun rest hrest => yields_pure fun n hn => ?_
  · refine yieldsAll_child fromQuoted_comment (Yields.mono (Yields.orElse
      (yields_statement (Grammar.upTo depth))
      (Yields.orElse (yields_other ?_ _) (yields_other ?_ _))) ?_)
    · decide
    · decide
    · intro n hn
      cases n
      exact hn
  · simp only [List.mem_append] at hn
    rcases hn with (hn | hn) | hn
    · exact hfirst n hn
    · exact hbody n hn
    · exact hrest n hn

end

/-- In the tree of every text what an import is from is a string. -/
theorem quotedSources_parse (text : String) : QuotedSources (SourceFile.parse text) := by
  intro n hn himport
  have hfrom : FromQuoted n := by
    have hchildren : (SourceFile.parse text).root.children =
        ((program (Grammar.upTo (16 * text.toList.length + 16)) ⟨text.toList, 0⟩).elim []
          (·.1)) := rfl
    rw [hchildren] at hn
    cases hprogram : program (Grammar.upTo (16 * text.toList.length + 16)) ⟨text.toList, 0⟩ with
    | none =>
      rw [hprogram] at hn
      cases hn
    | some found =>
      rw [hprogram] at hn
      exact yieldsAll_program _ _ found.1 found.2 hprogram n hn
  exact hfrom (beq_iff_eq.mp himport)

end TokenLint.NamedImport
