import Scribe.Proofs.Build.Safe.Expression
import Scribe.Proofs.Build.Sound.Statement

/-!
# Statements are built or refused

The rules for statements, each built or refused if its parts are, and the
step of the fold over a tree: `Branch.part_safe` makes a safe part of a
node that keeps the parser's promises.
-/

namespace Scribe

variable {P : String → Prop}

/-! ## Types in statements -/

/-- A statement spells its own types, those of its expressions and those
of the statements in its bodies. -/
theorem Stmt.Types.of {st : Stmt} (htypes : ∀ t ∈ st.spellings, P t)
    (hparts : ∀ q ∈ st.parts, q.2.Spelled P) (hinner : ∀ s, ∀ q ∈ st.inner s, q.2.Types P) :
    st.Types P :=
  fun s => Stmt.spelled_iff.2 ⟨htypes, hparts, fun q hq => hinner s q hq q.1⟩

/-- A statement without bodies. -/
theorem Stmt.Types.of_flat {st : Stmt} (hinner : ∀ s, st.inner s = [])
    (htypes : ∀ t ∈ st.spellings, P t) (hparts : ∀ q ∈ st.parts, q.2.Spelled P) : st.Types P :=
  .of htypes hparts fun s q hq => by simp [hinner s] at hq

/-- A conditional spells the types of its choices and no others. -/
theorem types_conditional {choices : List Choice} {loc : Option Location}
    (h : ∀ ch ∈ choices, ch.Types P) : (Stmt.conditional choices loc).Types P := by
  refine .of (List.forall_mem_nil _) (fun q hq => ?_) fun s q hq => ?_
  · obtain ⟨test, htest, rfl⟩ := List.mem_map.1 hq
    obtain ⟨body, hc⟩ := Choice.mem_tests.1 htest
    exact (h _ hc).1 test rfl
  · obtain ⟨st, hst, rfl⟩ := List.mem_map.1 hq
    obtain ⟨test, body, hc, hst⟩ := Choice.mem_bodies.1 hst
    exact (h _ hc).2 st hst

namespace Branch

variable {b : Branch} {c inner : Context}

/-! ## Assignments -/

/-- The types behind the target of an assignment have the property. -/
structure AssignmentTail.Types (P : String → Prop) (t : AssignmentTail) : Prop where
  type : ∀ spelling ∈ t.type, P spelling
  value : ∀ e ∈ t.value, e.Spelled P

/-- Behind the target stand operators, a type and a value. The type is spelled
as its part is. -/
theorem gives_assignmentTail {ps : List Part} (hps : ∀ p ∈ ps, p.Safe P) {t : AssignmentTail}
    (ht : t.Types P) : (assignmentTail inner t ps).Gives (AssignmentTail.Types P) := by
  refine ⟨fun t' h => ?_, fun e h => safe_failsAt hps (assignmentTail_eq_error h)⟩
  have hread := assignmentTail_eq_ok h
  constructor
  · exact hread.type.forall_type ht.type fun p hp => (hps p hp).type
  · exact hread.value.forall_some ht.value fun p hp => ((hps p hp).expression _).ok

/-- An assignment needs a part to assign to; without one the builder would
break off. -/
theorem gives_assignment (hb : ∀ p ∈ b.parts, p.Safe P) (hne : b.parts ≠ []) :
    (b.assignment c).Gives (Stmt.Types P) := by
  unfold assignment
  split
  · rename_i hparts
    exact absurd hparts hne
  · rename_i p ps hparts
    have hp := hb p (by simp [hparts])
    have hps : ∀ q ∈ ps, q.Safe P := fun q hq => hb q (by simp [hparts, hq])
    refine (hp.target _).bind fun left hleft =>
      (gives_assignmentTail hps ⟨by simp, by simp⟩).bind fun t ht =>
        .pure (.of_flat (fun _ => rfl) ?_ ?_)
    · simpa [Stmt.spellings] using ht.type
    · simpa [Stmt.parts, hleft] using ht.value

/-- A value alone is a statement, a comment, or refused. -/
theorem gives_expressionStatement (hb : ∀ p ∈ b.parts, p.Safe P) :
    (b.expressionStatement c).Gives (Stmt.Types P) := by
  have hexpression : ∀ {e : Expr}, e.Spelled P → (Stmt.expression e).Types P := fun he =>
    .of_flat (fun _ => rfl) (List.forall_mem_nil _) (List.forall_mem_singleton.2 he)
  unfold expressionStatement
  split
  · rename_i p hparts
    have hp := hb p (by simp [hparts])
    split
    · rename_i hkind
      exact hp.assignment (.inl hkind) _
    · rename_i hkind
      exact hp.assignment (.inr hkind) _
    · split
      · exact .pure (.of_flat (fun _ => rfl) (List.forall_mem_nil _) (List.forall_mem_nil _))
      · exact (hp.expression _).map fun e he => hexpression he
  · exact (gives_buildItems (by simp) fun p hp => (hb p hp).element _).bind fun is his =>
      .pure (hexpression (spelled_sequence his))

/-! ## Control flow -/

/-- The statements of a body are built one after another, or the first that is
refused stops them. -/
theorem gives_body (hb : ∀ p ∈ b.parts, p.Safe P) :
    (b.body c).Gives fun ss => ∀ st ∈ ss, st.Types P := by
  refine (gives_buildEach fun p hp => (hb p hp).statement _).bind fun os hos =>
    .pure fun st hst => ?_
  obtain ⟨o, ho, rfl⟩ := List.mem_filterMap.1 hst
  exact hos _ ho st rfl

/-- The parts of a clause are its test, its body, or refused. -/
theorem gives_choiceParts {ps : List Part} (hps : ∀ p ∈ ps, p.Safe P) {test : Option Expr}
    {body : List Stmt} (htest : ∀ e ∈ test, e.Spelled P) (hbody : ∀ st ∈ body, st.Types P) :
    (choiceParts c test body ps).Gives (Choice.Types P) := by
  refine ⟨?_, fun e h => safe_failsAt hps (choiceParts_eq_error h)⟩
  rintro ⟨test', body'⟩ h
  obtain ⟨htest', hbody'⟩ := choiceParts_eq_ok h
  constructor
  · exact htest'.forall_some htest fun p hp => ((hps p hp).expression _).ok
  · exact hbody'.forall_all hbody fun p hp => ((hps p hp).body _).ok

theorem gives_choice (hb : ∀ p ∈ b.parts, p.Safe P) : (b.choice c).Gives (Choice.Types P) :=
  gives_choiceParts hb (by simp) (by simp)

/-- A conditional is built of one choice for itself and one for every clause.
-/
theorem gives_conditionalStatement (hb : ∀ p ∈ b.parts, p.Safe P) :
    (b.conditionalStatement c).Gives (Stmt.Types P) :=
  (gives_choice hb).bind fun _ hfirst =>
    (gives_buildEach fun p hp => (hb p (List.mem_filter.1 hp).1).choice _).bind fun _ hrest =>
      .pure (types_conditional (List.forall_mem_cons.2 ⟨hfirst, hrest⟩))

/-- The types in the parts of a loop have the property. -/
structure ForParts.Types (P : String → Prop) (f : ForParts) : Prop where
  left : ∀ e ∈ f.left, e.Spelled P
  right : ∀ e ∈ f.right, e.Spelled P
  body : ∀ st ∈ f.body, st.Types P

/-- The parts of a loop over a container are its target, the container and the
body. -/
theorem gives_forParts {ps : List Part} (hps : ∀ p ∈ ps, p.Safe P) {f : ForParts}
    (hf : f.Types P) : (forParts inner f ps).Gives (ForParts.Types P) := by
  refine ⟨fun f' h => ?_, fun e h => safe_failsAt hps (forParts_eq_error h)⟩
  have hread := forParts_eq_ok h
  refine ⟨?_, ?_, ?_⟩
  · exact hread.left.forall_some hf.left fun p hp => ((hps p hp).target _).ok
  · exact hread.right.forall_some hf.right fun p hp => ((hps p hp).expression _).ok
  · exact hread.body.forall_all hf.body fun p hp => ((hps p hp).body _).ok

theorem gives_forStatement (hb : ∀ p ∈ b.parts, p.Safe P) :
    (b.forStatement c).Gives (Stmt.Types P) := by
  refine (gives_forParts hb ⟨by simp, by simp, by simp⟩).bind fun f hf => ?_
  split
  · rename_i left right hleft hright
    refine .pure (.of (List.forall_mem_nil _) ?_ fun s => ?_)
    · simp [Stmt.parts, hf.left left hleft, hf.right right hright]
    · simpa [Stmt.inner] using hf.body
  · exact .refuse ..

theorem gives_whileParts {ps : List Part} (hps : ∀ p ∈ ps, p.Safe P) {test : Option Expr}
    {body : List Stmt} (htest : ∀ e ∈ test, e.Spelled P) (hbody : ∀ st ∈ body, st.Types P) :
    (whileParts inner test body ps).Gives fun q =>
      (∀ e ∈ q.1, e.Spelled P) ∧ ∀ st ∈ q.2, st.Types P := by
  refine ⟨?_, fun e h => safe_failsAt hps (whileParts_eq_error h)⟩
  rintro ⟨test', body'⟩ h
  obtain ⟨htest', hbody'⟩ := whileParts_eq_ok h
  constructor
  · exact htest'.forall_some htest fun p hp => ((hps p hp).expression _).ok
  · exact hbody'.forall_all hbody fun p hp => ((hps p hp).body _).ok

/-- A loop without a test is refused, like one with two. -/
theorem gives_whileStatement (hb : ∀ p ∈ b.parts, p.Safe P) :
    (b.whileStatement c).Gives (Stmt.Types P) := by
  refine (gives_whileParts hb (by simp) (by simp)).bind fun q hq => ?_
  obtain ⟨test, body⟩ := q
  cases test with
  | none => exact .refuse ..
  | some t =>
    refine .pure (.of (List.forall_mem_nil _) ?_ fun s => ?_)
    · simpa [Stmt.parts] using hq.1
    · simpa [Stmt.inner] using hq.2

theorem gives_returnStatement (hb : ∀ p ∈ b.parts, p.Safe P) :
    (b.returnStatement c).Gives (Stmt.Types P) := by
  unfold returnStatement
  split
  · exact .pure (.of_flat (fun _ => rfl) (List.forall_mem_nil _) (List.forall_mem_nil _))
  · rename_i p hparts
    have hp := safe_of_partsWithout hb hparts p (by simp)
    exact (hp.expression _).bind fun e he =>
      .pure (.of_flat (fun _ => rfl) (List.forall_mem_nil _) (List.forall_mem_singleton.2 he))
  · exact .refuse ..

theorem gives_raiseStatement (hb : ∀ p ∈ b.parts, p.Safe P) :
    (b.raiseStatement c).Gives (Stmt.Types P) := by
  unfold raiseStatement
  split
  · exact .refuse ..
  · rename_i p hparts
    have hp := safe_of_partsWithout hb hparts p (by simp)
    exact (hp.expression _).bind fun e he =>
      .pure (.of_flat (fun _ => rfl) (List.forall_mem_nil _) (List.forall_mem_singleton.2 he))
  · exact .refuse ..

/-! ## Definitions -/

/-- The types in the parts of a function have the property. -/
structure FunctionParts.Types (P : String → Prop) (f : FunctionParts) : Prop where
  parameters : ∀ e ∈ f.parameters, e.Spelled P
  returnType : ∀ spelling ∈ f.returnType, P spelling
  body : ∀ st ∈ f.body, st.Types P

/-- The type that a function returns is spelled as its part is; its parameters
and its body have types of their own. -/
theorem gives_functionParts {ps : List Part} (hps : ∀ p ∈ ps, p.Safe P) {f : FunctionParts}
    (hf : f.Types P) : (functionParts inner f ps).Gives (FunctionParts.Types P) := by
  refine ⟨fun f' h => ?_, fun e h => safe_failsAt hps (functionParts_eq_error h)⟩
  have hread := functionParts_eq_ok h
  refine ⟨?_, ?_, ?_⟩
  · exact hread.parameters.forall_all hf.parameters
      fun p hp => ((hps p hp).parameters _).ok
  · exact hread.returnType.forall_type hf.returnType fun p hp => (hps p hp).type
  · exact hread.body.forall_all hf.body fun p hp => ((hps p hp).body _).ok

theorem gives_function (hb : ∀ p ∈ b.parts, p.Safe P) (ds : List String) :
    (b.function ds c).Gives (Stmt.Types P) := by
  refine (gives_functionParts hb ⟨by simp, by simp, by simp⟩).bind fun f hf =>
    .pure (.of ?_ ?_ fun s => ?_)
  · simpa [Stmt.spellings] using hf.returnType
  · simpa [Stmt.parts] using hf.parameters
  · simpa [Stmt.inner] using hf.body

/-- The types in the parts of a class have the property. -/
structure ClassParts.Types (P : String → Prop) (f : ClassParts) : Prop where
  arguments : ∀ e ∈ f.arguments.getD [], e.Spelled P
  body : ∀ st ∈ f.body, st.Types P

theorem gives_classParts {ps : List Part} (hps : ∀ p ∈ ps, p.Safe P) {f : ClassParts}
    (hf : f.Types P) : (classParts inner f ps).Gives (ClassParts.Types P) := by
  refine ⟨fun f' h => ?_, fun e h => safe_failsAt hps (classParts_eq_error h)⟩
  have hread := classParts_eq_ok h
  constructor
  · exact forall_getD.1 (hread.arguments.forall_some (forall_getD.2 hf.arguments)
      fun p hp => ((hps p hp).arguments _).ok)
  · exact hread.body.forall_all hf.body fun p hp => ((hps p hp).body _).ok

theorem gives_classDefinition (hb : ∀ p ∈ b.parts, p.Safe P) (ds : List String) :
    (b.classDefinition ds c).Gives (Stmt.Types P) := by
  refine (gives_classParts hb ⟨by simp, by simp⟩).bind fun f hf =>
    .pure (.of (List.forall_mem_nil _) ?_ fun s => ?_)
  · simpa [Stmt.parts] using hf.arguments
  · simpa [Stmt.inner] using hf.body

/-- What is decorated is a function or a class, or refused. -/
theorem gives_definition (hb : ∀ p ∈ b.parts, p.Safe P) (ds : List String) :
    (b.definition ds c).Gives (Stmt.Types P) := by
  unfold definition
  split
  · exact gives_classDefinition hb ds
  · exact gives_function hb ds

theorem gives_decoratedParts {ps : List Part} (hps : ∀ p ∈ ps, p.Safe P) (ds : List String) :
    (decoratedParts b c ds ps).Gives (Stmt.Types P) := by
  induction ps generalizing ds with
  | nil => exact .refuse ..
  | cons p ps ih =>
    have hp := hps p (List.mem_cons_self ..)
    unfold decoratedParts
    split
    · exact ih (fun q hq => hps q (List.mem_cons_of_mem _ hq)) _
    · exact hp.definition _ _
    · exact hp.definition _ _
    · exact .refuse ..

/-! ## Roles -/

/-- **Every statement is built or refused.** Punctuation gives none. -/
theorem gives_statement (hb : ∀ p ∈ b.parts, p.Safe P) :
    (b.statement c).Gives fun o => ∀ st ∈ o, st.Types P := by
  have hsome : ∀ {x : Traced Stmt}, x.Gives (Stmt.Types P) →
      (some <$> x).Gives fun o => ∀ st ∈ o, st.Types P :=
    fun hx => hx.map fun st hst => by simpa using hst
  have hsimple : ∀ kind loc, ∀ st ∈ some (Stmt.simple kind loc), st.Types P := by
    rintro kind loc st ⟨⟩
    exact .of_flat (fun _ => rfl) (List.forall_mem_nil _) (List.forall_mem_nil _)
  unfold statement
  split
  · exact hsome (gives_expressionStatement hb)
  · exact hsome (gives_function hb _)
  · exact hsome (gives_classDefinition hb _)
  · exact hsome (gives_decoratedParts hb _)
  · exact hsome (gives_conditionalStatement hb)
  · exact hsome (gives_forStatement hb)
  · exact hsome (gives_whileStatement hb)
  · exact hsome (gives_returnStatement hb)
  · exact hsome (gives_raiseStatement hb)
  · exact .pure (hsimple _ _)
  · exact .pure (hsimple _ _)
  · exact .pure (hsimple _ _)
  · exact .of_result rfl nofun
  · exact .of_result rfl nofun
  · exact .of_result rfl nofun
  · exact .refuse ..

/-- **The rules keep the promise.** A node is safe if it is headed and
bounded and its parts are safe. -/
theorem part_safe (hb : b.Safe P) : b.part.Safe P where
  type := hb.type
  statement _ := gives_statement hb.parts
  expression _ := gives_expression hb
  foreign h _ := gives_foreign h
  argument _ := gives_argument hb
  element _ := gives_element hb
  target _ := gives_target hb
  parameter _ := gives_parameter hb.parts
  body _ := gives_body hb.parts
  arguments _ := gives_arguments hb.parts
  parameters _ := gives_parameters hb.parts
  choice _ := gives_choice hb.parts
  assignment h _ := gives_assignment hb.parts <|
    hb.headed (by rcases h with h | h <;> simp [show b.kind = _ from h])
  definition ds _ := gives_definition hb.parts ds
  entry _ := gives_pair hb.parts
  bounds h _ := gives_bounds hb h
  starred _ := gives_starred b _

end Branch

end Scribe
