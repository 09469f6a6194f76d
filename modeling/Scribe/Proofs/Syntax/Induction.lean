import Scribe.Ast.Basic
import Scribe.Cst.Basic

/-!
# Induction over syntax

Expressions, statements and concrete trees hold their parts in lists and
options, so the recursors that come with the types carry a motive for
every such container. The principles below carry one motive: what holds
of a part is assumed of every member of the container it stands in.
-/

namespace Scribe

/-- **Induction over expressions.** A part in a list or an option comes
as a member of it. -/
@[elab_as_elim]
theorem Expr.induction {motive : Expr → Prop}
    (reference : ∀ name splat loc, motive (.reference name splat loc))
    (defaultParameter : ∀ name value loc, motive value →
      motive (.defaultParameter name value loc))
    (typedParameter : ∀ name type splat loc, motive (.typedParameter name type splat loc))
    (typedDefaultParameter : ∀ name type value loc, motive value →
      motive (.typedDefaultParameter name type value loc))
    (call : ∀ callee arguments loc, motive callee → (∀ a ∈ arguments, motive a) →
      motive (.call callee arguments loc))
    (keywordArgument : ∀ name value loc, motive value → motive (.keywordArgument name value loc))
    (member : ∀ object property loc, motive object → motive property →
      motive (.member object property loc))
    (subscript : ∀ value index loc, motive value → motive index →
      motive (.subscript value index loc))
    (slice : ∀ start stop step loc, (∀ e ∈ start, motive e) → (∀ e ∈ stop, motive e) →
      (∀ e ∈ step, motive e) → motive (.slice start stop step loc))
    (binary : ∀ left op right loc, motive left → motive right →
      motive (.binary left op right loc))
    (not : ∀ operand loc, motive operand → motive (.not operand loc))
    (unary : ∀ op operand loc, motive operand → motive (.unary op operand loc))
    (conditional : ∀ test consequence alternative loc, motive test → motive consequence →
      motive alternative → motive (.conditional test consequence alternative loc))
    (parenthesized : ∀ inner loc, motive inner → motive (.parenthesized inner loc))
    (lambda : ∀ parameters body loc, (∀ p ∈ parameters, motive p) → motive body →
      motive (.lambda parameters body loc))
    (string : ∀ text loc, motive (.string text loc))
    (number : ∀ kind text loc, motive (.number kind text loc))
    (boolean : ∀ value loc, motive (.boolean value loc))
    (null : ∀ loc, motive (.null loc))
    (sequence : ∀ kind items loc, (∀ e, some e ∈ items → motive e) →
      motive (.sequence kind items loc))
    (dictionary : ∀ entries loc, (∀ e ∈ entries, motive e) → motive (.dictionary entries loc))
    (pair : ∀ key value loc, motive key → motive value → motive (.pair key value loc))
    (e : Expr) : motive e := by
  refine @Expr.rec motive (fun es => ∀ e ∈ es, motive e) (fun o => ∀ e ∈ o, motive e)
    (fun is => ∀ e, some e ∈ is → motive e) reference defaultParameter typedParameter
    typedDefaultParameter call keywordArgument member subscript slice binary not unary conditional
    parenthesized lambda string number boolean null sequence dictionary pair ?_ ?_ ?_ ?_ ?_ ?_ e
  · simp
  · intro e es he hes
    exact List.forall_mem_cons.2 ⟨he, hes⟩
  · simp
  · intro e he
    simpa using he
  · simp
  · intro o os ho hos e he
    rcases List.mem_cons.1 he with rfl | he
    · exact ho e rfl
    · exact hos e he

/-- **Induction over statements.** A statement of a body comes as a
member of it. -/
@[elab_as_elim]
theorem Stmt.induction {motive : Stmt → Prop}
    (expression : ∀ value, motive (.expression value))
    (assignment : ∀ left right operator type loc,
      motive (.assignment left right operator type loc))
    (function : ∀ name parameters body returnType decorators loc, (∀ s ∈ body, motive s) →
      motive (.function name parameters body returnType decorators loc))
    (classDefinition : ∀ name body arguments decorators loc, (∀ s ∈ body, motive s) →
      motive (.classDefinition name body arguments decorators loc))
    (conditional : ∀ choices loc,
      (∀ test body, Choice.mk test body ∈ choices → ∀ s ∈ body, motive s) →
      motive (.conditional choices loc))
    (forLoop : ∀ left right body loc, (∀ s ∈ body, motive s) →
      motive (.forLoop left right body loc))
    (whileLoop : ∀ test body loc, (∀ s ∈ body, motive s) → motive (.whileLoop test body loc))
    (returning : ∀ value loc, motive (.returning value loc))
    (raising : ∀ value loc, motive (.raising value loc))
    (simple : ∀ kind loc, motive (.simple kind loc))
    (comment : ∀ text loc, motive (.comment text loc))
    (s : Stmt) : motive s := by
  refine @Stmt.rec motive (fun c => ∀ test body, c = .mk test body → ∀ s ∈ body, motive s)
    (fun ss => ∀ s ∈ ss, motive s)
    (fun cs => ∀ test body, Choice.mk test body ∈ cs → ∀ s ∈ body, motive s)
    expression assignment function classDefinition conditional forLoop whileLoop returning
    raising simple comment ?_ ?_ ?_ ?_ ?_ s
  · rintro test body hbody _ _ ⟨rfl, rfl⟩
    exact hbody
  · simp
  · intro s ss hs hss
    exact List.forall_mem_cons.2 ⟨hs, hss⟩
  · simp
  · intro c cs hc hcs test body h
    rcases List.mem_cons.1 h with h | h
    · exact hc test body h.symm
    · exact hcs test body h

/-- **Induction over concrete trees.** -/
@[elab_as_elim]
theorem Cst.induction {motive : Cst → Prop}
    (leaf : ∀ kind text span, motive (.leaf kind text span))
    (tree : ∀ kind children span, (∀ c ∈ children, motive c) → motive (.tree kind children span))
    (c : Cst) : motive c := by
  refine @Cst.rec motive (fun cs => ∀ c ∈ cs, motive c) leaf tree ?_ ?_ c
  · simp
  · intro c cs hc hcs
    exact List.forall_mem_cons.2 ⟨hc, hcs⟩

end Scribe
