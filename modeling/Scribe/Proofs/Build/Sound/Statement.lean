import Scribe.Proofs.Build.Sound.Expression
import Scribe.Proofs.Syntax.Induction

/-!
# What is built is well formed

The rules for statements, in the manner of the rules for expressions,
and the fold of all rules over a tree (`Cst.part_sound`). `fits_of_build`
is what the rest of the theory reads: every statement of a built program
is well formed.

A string alone in a statement needs the region: it becomes
documentation only in a region that holds statements, and every
statement is built in one.
-/

namespace Scribe

/-- Inside a node the region stays. -/
theorem Context.holdsStatements_within {c : Context} (h : c.holdsStatements = true) (k : Kind) :
    (c.within k).holdsStatements = true :=
  h

namespace Branch

variable {b : Branch} {c inner : Context} {e : Expr} {st : Stmt}

/-! ## Assignments and expressions -/

/-- Behind the target the operator stays one that assigns, and the value is a
value. -/
theorem fits_assignmentTail {ps : List Part} (hps : ∀ p ∈ ps, p.Sound) {t t' : AssignmentTail}
    (h : (assignmentTail inner t ps).result = .ok t')
    (hop : assignmentOperators.contains t.operator = true)
    (hvalue : ∀ e ∈ t.value, e.fits .value = true) :
    assignmentOperators.contains t'.operator = true ∧ ∀ e ∈ t'.value, e.fits .value = true := by
  have ht := assignmentTail_eq_ok h
  constructor
  · refine ht.operator.holds (Q := fun op => assignmentOperators.contains op = true) hop ?_
    rintro p - _ ⟨hp, rfl⟩
    exact hp
  · exact ht.value.forall_some hvalue fun p hp => (hps p hp).expression _

/-- What is assigned to is built as a target, whatever is assigned. -/
theorem fits_assignment (hb : ∀ p ∈ b.parts, p.Sound) (h : (b.assignment c).result = .ok st) :
    st.fits = true := by
  simp only [assignment] at h
  split at h
  · cases h
  · rename_i p ps hparts
    simp only [Traced.bind_eq_ok, Traced.pure_eq_ok] at h
    obtain ⟨left, hleft, t, ht, rfl⟩ := h
    rw [hparts] at hb
    have hleft := (hb p (List.mem_cons_self ..)).target _ _ hleft
    obtain ⟨hop, hvalue⟩ := fits_assignmentTail
      (fun q hq => hb q (List.mem_cons_of_mem _ hq)) ht (by decide) (by simp)
    simp only [Stmt.fits, Bool.and_eq_true, Expr.optionFits_iff]
    exact ⟨⟨hleft, hvalue⟩, hop⟩

/-- A value that is no documentation, since that would have become a
comment. -/
theorem fits_of_expression {p : Part} (hp : p.Sound)
    (hdoc : (p.kind = .string && c.holdsStatements && Literal.isTripleQuoted p.text) = false)
    (hc : c.holdsStatements = true) (he : (p.expression inner).result = .ok e) :
    (Stmt.expression e).fits = true := by
  simp only [Stmt.fits, Bool.and_eq_true, Bool.not_eq_true']
  refine ⟨hp.expression _ _ he, ?_⟩
  cases e with
  | string text loc =>
    obtain ⟨hkind, rfl⟩ := hp.string _ _ _ he
    simpa [hkind, hc, Expr.isDocumentation] using hdoc
  | _ => rfl

/-- A value alone is a statement unless it is documentation, and several are
one tuple. -/
theorem fits_expressionStatement (hb : ∀ p ∈ b.parts, p.Sound) (hc : c.holdsStatements = true)
    (h : (b.expressionStatement c).result = .ok st) : st.fits = true := by
  simp only [expressionStatement] at h
  split at h
  · rename_i p hparts
    have hp := hb p (by simp [hparts])
    split at h
    · exact hp.assignment _ _ h
    · exact hp.assignment _ _ h
    · split at h
      · rename_i hdoc
        obtain rfl := Traced.pure_eq_ok.1 h
        simp only [Bool.and_eq_true] at hdoc
        exact hdoc.2
      · rename_i hdoc
        obtain ⟨e, he, rfl⟩ := Traced.map_eq_ok.1 h
        exact fits_of_expression hp (by simpa using hdoc) hc he
  · simp only [Traced.bind_eq_ok, Traced.pure_eq_ok] at h
    obtain ⟨is, his, rfl⟩ := h
    have hall : ∀ e, some e ∈ is → e.fits .element = true :=
      forall_of_buildItems his (by simp) fun p hp e he => (hb p hp).element _ _ he
    simp [Stmt.fits, Expr.fits, Role.takesValue, Expr.itemsFit_iff.2 hall, Expr.isDocumentation]

/-! ## Control flow -/

/-- A body is built in a region that holds statements, so each of its
statements is well formed. -/
theorem fits_body (hb : ∀ p ∈ b.parts, p.Sound) (hc : c.holdsStatements = true)
    {ss : List Stmt} (h : (b.body c).result = .ok ss) : ∀ s ∈ ss, s.fits = true := by
  simp only [body, Traced.bind_eq_ok, Traced.pure_eq_ok] at h
  obtain ⟨os, hos, rfl⟩ := h
  have hall : ∀ o ∈ os, ∀ s ∈ o, s.fits = true := by
    refine forall_of_buildEach hos ?_
    rintro p hp o ho s rfl
    exact (hb p hp).statement _ _ (Context.holdsStatements_within hc _) ho
  intro s hs
  obtain ⟨o, ho, rfl⟩ := List.mem_filterMap.1 hs
  exact hall _ ho s rfl

/-- The test of a clause is a value, and its body was built in the region of
the clause. -/
theorem fits_choiceParts {ps : List Part} (hps : ∀ p ∈ ps, p.Sound)
    (hc : c.holdsStatements = true) {test : Option Expr} {ss : List Stmt} {ch : Choice}
    (htest : ∀ e ∈ test, e.fits .value = true) (hss : ∀ s ∈ ss, s.fits = true)
    (h : (choiceParts c test ss ps).result = .ok ch) : ch.fits = true := by
  obtain ⟨test', ss'⟩ := ch
  obtain ⟨htest', hss'⟩ := choiceParts_eq_ok h
  simp only [Choice.fits, Bool.and_eq_true, Expr.optionFits_iff, Stmt.allFit_iff]
  constructor
  · exact htest'.forall_some htest fun p hp => (hps p hp).expression _
  · exact hss'.forall_all hss fun p hp _ => (hps p hp).body _ _ hc

theorem fits_choice (hb : ∀ p ∈ b.parts, p.Sound) (hc : c.holdsStatements = true) {ch : Choice}
    (h : (b.choice c).result = .ok ch) : ch.fits = true :=
  fits_choiceParts hb hc (by simp) (by simp) h

/-- The first choice is read off the statement itself, the others off its
clauses. -/
theorem fits_conditionalStatement (hb : ∀ p ∈ b.parts, p.Sound)
    (h : (b.conditionalStatement c).result = .ok st) : st.fits = true := by
  simp only [conditionalStatement, Traced.bind_eq_ok, Traced.pure_eq_ok] at h
  obtain ⟨first, hfirst, rest, hrest, rfl⟩ := h
  have hinner : (c.entering b.kind "if_statement").holdsStatements = true := rfl
  have hfirst := fits_choice hb hinner hfirst
  have hrest : ∀ ch ∈ rest, ch.fits = true :=
    forall_of_buildEach hrest fun p hp ch hch =>
      (hb p (List.mem_filter.1 hp).1).choice _ _ (Context.holdsStatements_within hinner _) hch
  simp [Stmt.fits, Choice.allFit, hfirst, Choice.allFit_iff.2 hrest]

/-- What was read of a loop over a container is well formed. -/
structure ForParts.Fit (f : ForParts) : Prop where
  left : ∀ e ∈ f.left, e.fits .target = true
  right : ∀ e ∈ f.right, e.fits .value = true
  body : ∀ s ∈ f.body, s.fits = true

/-- Each part that is read keeps what was read before well formed. -/
theorem fit_forParts {ps : List Part} (hps : ∀ p ∈ ps, p.Sound)
    (hc : inner.holdsStatements = true) {f f' : ForParts}
    (h : (forParts inner f ps).result = .ok f') (hf : f.Fit) : f'.Fit := by
  have hread := forParts_eq_ok h
  refine ⟨?_, ?_, ?_⟩
  · exact hread.left.forall_some hf.left fun p hp => (hps p hp).target _
  · exact hread.right.forall_some hf.right fun p hp => (hps p hp).expression _
  · exact hread.body.forall_all hf.body fun p hp _ => (hps p hp).body _ _ hc

theorem fits_forStatement (hb : ∀ p ∈ b.parts, p.Sound)
    (h : (b.forStatement c).result = .ok st) : st.fits = true := by
  simp only [forStatement, Traced.bind_eq_ok] at h
  obtain ⟨f, hf, h⟩ := h
  have hfit : f.Fit := fit_forParts hb rfl hf ⟨by simp, by simp, by simp⟩
  split at h
  · rename_i left right hleft hright
    obtain rfl := Traced.pure_eq_ok.1 h
    simp [Stmt.fits, hfit.left left hleft, hfit.right right hright, Stmt.allFit_iff.2 hfit.body]
  · simp at h

/-- A loop under a condition keeps a value for its test. -/
theorem fits_whileParts {ps : List Part} (hps : ∀ p ∈ ps, p.Sound)
    (hc : inner.holdsStatements = true) {test test' : Option Expr} {ss ss' : List Stmt}
    (htest : ∀ e ∈ test, e.fits .value = true) (hss : ∀ s ∈ ss, s.fits = true)
    (h : (whileParts inner test ss ps).result = .ok (test', ss')) :
    (∀ e ∈ test', e.fits .value = true) ∧ ∀ s ∈ ss', s.fits = true := by
  obtain ⟨htest', hss'⟩ := whileParts_eq_ok h
  constructor
  · exact htest'.forall_some htest fun p hp => (hps p hp).expression _
  · exact hss'.forall_all hss fun p hp _ => (hps p hp).body _ _ hc

theorem fits_whileStatement (hb : ∀ p ∈ b.parts, p.Sound)
    (h : (b.whileStatement c).result = .ok st) : st.fits = true := by
  simp only [whileStatement, Traced.bind_eq_ok] at h
  obtain ⟨⟨test, body⟩, hparts, h⟩ := h
  obtain ⟨htest, hbody⟩ := fits_whileParts hb rfl (by simp) (by simp) hparts
  split at h
  · rename_i t ht
    obtain rfl := Traced.pure_eq_ok.1 h
    simp [Stmt.fits, htest t ht, Stmt.allFit_iff.2 hbody]
  · simp at h

theorem fits_returnStatement (hb : ∀ p ∈ b.parts, p.Sound)
    (h : (b.returnStatement c).result = .ok st) : st.fits = true := by
  simp only [returnStatement] at h
  split at h
  · obtain rfl := Traced.pure_eq_ok.1 h
    rfl
  · rename_i p hparts
    simp only [Traced.bind_eq_ok, Traced.pure_eq_ok] at h
    obtain ⟨e, he, rfl⟩ := h
    exact (sound_of_partsWithout hb hparts p (by simp)).expression _ _ he
  · simp at h

theorem fits_raiseStatement (hb : ∀ p ∈ b.parts, p.Sound)
    (h : (b.raiseStatement c).result = .ok st) : st.fits = true := by
  simp only [raiseStatement] at h
  split at h
  · simp at h
  · rename_i p hparts
    simp only [Traced.bind_eq_ok, Traced.pure_eq_ok] at h
    obtain ⟨e, he, rfl⟩ := h
    exact (sound_of_partsWithout hb hparts p (by simp)).expression _ _ he
  · simp at h

/-! ## Definitions -/

/-- What was read of a function is well formed. -/
structure FunctionParts.Fit (f : FunctionParts) : Prop where
  parameters : ∀ e ∈ f.parameters, e.fits .parameter = true
  body : ∀ s ∈ f.body, s.fits = true

/-- Parameters are built as parameters, and a body in the region of the
function. -/
theorem fit_functionParts {ps : List Part} (hps : ∀ p ∈ ps, p.Sound)
    (hc : inner.holdsStatements = true) {f f' : FunctionParts}
    (h : (functionParts inner f ps).result = .ok f') (hf : f.Fit) : f'.Fit := by
  have hread := functionParts_eq_ok h
  constructor
  · exact hread.parameters.forall_all hf.parameters fun p hp => (hps p hp).parameters _
  · exact hread.body.forall_all hf.body fun p hp _ => (hps p hp).body _ _ hc

theorem fits_function (hb : ∀ p ∈ b.parts, p.Sound) {ds : List String}
    (h : (b.function ds c).result = .ok st) : st.fits = true := by
  simp only [function, Traced.bind_eq_ok, Traced.pure_eq_ok] at h
  obtain ⟨f, hf, rfl⟩ := h
  have hfit : f.Fit := fit_functionParts hb rfl hf ⟨by simp, by simp⟩
  simp only [Stmt.fits, Bool.and_eq_true, Expr.allFit_iff, Stmt.allFit_iff]
  exact ⟨hfit.parameters, hfit.body⟩

/-- What was read of a class is well formed. -/
structure ClassParts.Fit (f : ClassParts) : Prop where
  arguments : ∀ es ∈ f.arguments, ∀ e ∈ es, e.fits .argument = true
  body : ∀ s ∈ f.body, s.fits = true

theorem fit_classParts {ps : List Part} (hps : ∀ p ∈ ps, p.Sound)
    (hc : inner.holdsStatements = true) {f f' : ClassParts}
    (h : (classParts inner f ps).result = .ok f') (hf : f.Fit) : f'.Fit := by
  have hread := classParts_eq_ok h
  constructor
  · exact hread.arguments.forall_some hf.arguments fun p hp => (hps p hp).arguments _
  · exact hread.body.forall_all hf.body fun p hp _ => (hps p hp).body _ _ hc

theorem fits_classDefinition (hb : ∀ p ∈ b.parts, p.Sound) {ds : List String}
    (h : (b.classDefinition ds c).result = .ok st) : st.fits = true := by
  simp only [classDefinition, Traced.bind_eq_ok, Traced.pure_eq_ok] at h
  obtain ⟨f, hf, rfl⟩ := h
  have hfit : f.Fit := fit_classParts hb rfl hf ⟨by simp, by simp⟩
  simp only [Stmt.fits, Bool.and_eq_true, Option.all_eq_true, Expr.allFit_iff, Stmt.allFit_iff]
  exact ⟨hfit.arguments, hfit.body⟩

/-- A definition is a function or a class. -/
theorem fits_definition (hb : ∀ p ∈ b.parts, p.Sound) {ds : List String}
    (h : (b.definition ds c).result = .ok st) : st.fits = true := by
  simp only [definition] at h
  split at h
  · exact fits_classDefinition hb h
  · exact fits_function hb h

/-- Decorators are carried as texts, so only the definition is judged. -/
theorem fits_decoratedParts {ps : List Part} (hps : ∀ p ∈ ps, p.Sound) {ds : List String}
    (h : (decoratedParts b c ds ps).result = .ok st) : st.fits = true := by
  induction ps generalizing ds with
  | nil => simp [decoratedParts] at h
  | cons p ps ih =>
    have hp := hps p (List.mem_cons_self ..)
    simp only [decoratedParts] at h
    split at h
    · exact ih (fun q hq => hps q (List.mem_cons_of_mem _ hq)) h
    · exact hp.definition _ _ _ h
    · exact hp.definition _ _ _ h
    · simp at h

/-- **Every rule for statements** builds a well formed one, in a region that
holds statements. -/
theorem fits_statement (hb : ∀ p ∈ b.parts, p.Sound) (hc : c.holdsStatements = true)
    (h : (b.statement c).result = .ok (some st)) : st.fits = true := by
  simp only [statement] at h
  split at h
  · obtain ⟨s, hs, ⟨⟩⟩ := Traced.map_eq_ok.1 h
    exact fits_expressionStatement hb hc hs
  · obtain ⟨s, hs, ⟨⟩⟩ := Traced.map_eq_ok.1 h
    exact fits_function hb hs
  · obtain ⟨s, hs, ⟨⟩⟩ := Traced.map_eq_ok.1 h
    exact fits_classDefinition hb hs
  · obtain ⟨s, hs, ⟨⟩⟩ := Traced.map_eq_ok.1 h
    exact fits_decoratedParts hb hs
  · obtain ⟨s, hs, ⟨⟩⟩ := Traced.map_eq_ok.1 h
    exact fits_conditionalStatement hb hs
  · obtain ⟨s, hs, ⟨⟩⟩ := Traced.map_eq_ok.1 h
    exact fits_forStatement hb hs
  · obtain ⟨s, hs, ⟨⟩⟩ := Traced.map_eq_ok.1 h
    exact fits_whileStatement hb hs
  · obtain ⟨s, hs, ⟨⟩⟩ := Traced.map_eq_ok.1 h
    exact fits_returnStatement hb hs
  · obtain ⟨s, hs, ⟨⟩⟩ := Traced.map_eq_ok.1 h
    exact fits_raiseStatement hb hs
  · obtain rfl := Option.some.inj (Traced.pure_eq_ok.1 h); rfl
  · obtain rfl := Option.some.inj (Traced.pure_eq_ok.1 h); rfl
  · obtain rfl := Option.some.inj (Traced.pure_eq_ok.1 h); rfl
  · simp at h
  · simp at h
  · simp at h
  · simp at h

/-! ## The fold over a tree -/

/-- **The rules keep soundness.** A node is sound if its parts are. -/
theorem part_sound (hb : ∀ p ∈ b.parts, p.Sound) : b.part.Sound where
  statement _ _ := fits_statement hb
  expression _ _ := fits_expression hb
  string _ _ _ := expression_eq_string
  argument _ _ := fits_argument hb
  spread _ _ := fits_spread
  element _ _ := fits_element hb
  target _ _ := fits_target hb
  parameter _ _ := fits_parameter hb
  body _ _ hc h := fits_body hb hc h
  arguments _ _ := fits_arguments hb
  parameters _ _ := fits_parameters hb
  choice _ _ hc := fits_choice hb hc
  assignment _ _ := fits_assignment hb
  definition _ _ _ := fits_definition hb
  entry _ _ := fits_pair hb
  bounds _ _ := fits_bounds hb

end Branch

namespace Cst

/-- Every tree is sound as a part. -/
theorem part_sound (file : String) (t : Cst) : (t.part file).Sound := by
  induction t using Cst.induction with
  | leaf kind text span => exact Branch.part_sound (by simp)
  | tree kind children span ih =>
    refine Branch.part_sound fun p hp => ?_
    obtain ⟨c, hc, rfl⟩ := mem_partsOf (List.mem_filter.1 hp).1
    exact ih c hc

/-- **Every statement of a built program is well formed.** -/
theorem fits_of_build {file : String} {t : Cst} {p : Program}
    (h : (t.build file).result = .ok p) : ∀ s ∈ p.body, s.fits = true := by
  simp only [build] at h
  split at h
  · simp at h
  · simp only [Traced.bind_eq_ok, Traced.pure_eq_ok] at h
    obtain ⟨body, hbody, rfl⟩ := h
    exact (part_sound file t).body _ _ rfl hbody

end Cst

end Scribe
