import Scribe.Proofs.Build.Sound.Expression
import Scribe.Proofs.Decision
import Scribe.Proofs.Syntax.Spelling

/-!
# Expressions are built or refused

Every rule of the builder, given parts that are built or refused, builds
or refuses. It breaks off only where a tree breaks a promise of the
parser: a call, subscript or assignment without any part, or a slice with
a bound too many. `Branch.Safe` is the promise, and `Part.Safe` says what
a part of such a tree does in every role.

Beside this the types in what is built are followed: they are spelled as
the parts of kind `type` are.

This file takes the rules for parameters, sequences and expressions one
by one; `Scribe.Proofs.Build.Safe.Statement` takes those for statements.
-/

namespace Scribe

variable {α β : Type} {P : String → Prop}

/-! ## Steps that build or refuse -/

/-- **The step builds or refuses**: what it builds has the property, and
otherwise a construct is not supported. -/
structure Traced.Gives (x : Traced α) (Q : α → Prop) : Prop where
  ok : ∀ a, x.result = .ok a → Q a
  unsupported : ∀ e, x.result = .error e → e.IsUnsupported

namespace Traced.Gives

variable {x : Traced α} {f : α → Traced β} {g : α → β} {Q : α → Prop} {R : β → Prop}

theorem of_result {a : α} (h : x.result = .ok a) (hQ : Q a) : x.Gives Q :=
  ⟨fun _ h' => Except.ok.inj (h.symm.trans h') ▸ hQ, fun _ h' => nomatch h.symm.trans h'⟩

theorem pure {a : α} (h : Q a) : (Pure.pure a : Traced α).Gives Q :=
  of_result rfl h

/-- A refusal names a construct that is not supported. -/
theorem refuse (c : Context) (kind : Kind) (loc : Option Location) :
    (c.refuse kind loc : Traced α).Gives Q :=
  ⟨nofun, fun _ h => ⟨kind.name, c.parentName, loc, (Except.error.inj h).symm⟩⟩

/-- **Two steps.** -/
theorem bind (hx : x.Gives Q) (hf : ∀ a, Q a → (f a).Gives R) : (x >>= f).Gives R := by
  refine ⟨fun b h => ?_, fun e h => ?_⟩
  · obtain ⟨a, ha, hb⟩ := Traced.bind_eq_ok.1 h
    exact (hf a (hx.ok a ha)).ok b hb
  · rw [Traced.result_bind] at h
    cases ha : x.result with
    | error e' =>
      rw [ha] at h
      exact Except.error.inj h ▸ hx.unsupported e' ha
    | ok a =>
      rw [ha] at h
      exact (hf a (hx.ok a ha)).unsupported e h

theorem map (hx : x.Gives Q) (hg : ∀ a, Q a → R (g a)) : (g <$> x).Gives R :=
  hx.bind fun a ha => pure (hg a ha)

end Traced.Gives

/-- Steps one after another build what each of them builds, or stop at the
first that refuses. -/
theorem gives_buildEach {build : α → Traced β} {as : List α} {Q : β → Prop}
    (h : ∀ a ∈ as, (build a).Gives Q) : (buildEach build as).Gives fun bs => ∀ b ∈ bs, Q b := by
  induction as with
  | nil => exact .pure (by simp)
  | cons a as ih =>
    have has := ih fun a ha => h a (List.mem_cons_of_mem _ ha)
    exact (h a (List.mem_cons_self ..)).bind fun b hb => has.bind fun bs hbs =>
      .pure (List.forall_mem_cons.2 ⟨hb, hbs⟩)

/-- The items of a sequence are built where a comma leaves a place for them.
-/
theorem gives_buildItems {build : Part → Traced Expr} {ps : List Part} {Q : Expr → Prop}
    {is : List (Option Expr)} (his : ∀ e, some e ∈ is → Q e) (h : ∀ p ∈ ps, (build p).Gives Q) :
    (buildItems build is ps).Gives fun is => ∀ e, some e ∈ is → Q e := by
  induction ps generalizing is with
  | nil => exact .pure his
  | cons p ps ih =>
    have hps : ∀ p ∈ ps, (build p).Gives Q := fun q hq => h q (List.mem_cons_of_mem _ hq)
    unfold buildItems
    split
    · exact ih his hps
    · split
      · exact ih (Branch.forall_mem_separate his) hps
      · exact (h p (List.mem_cons_self ..)).bind fun e he =>
          ih (Branch.forall_mem_place he his) hps

/-! ## Types in expressions -/

/-- An expression that spells no type itself spells those of its
children. -/
theorem Expr.Spelled.of_children {e : Expr} (h : e.spellings = [])
    (hc : ∀ c ∈ e.children, c.Spelled P) : e.Spelled P :=
  Expr.spelled_iff.2 ⟨by simp [h], hc⟩

/-- A name spells no type. -/
theorem spelled_reference {name : String} {splat : Option Splat} {loc : Option Location} :
    (Expr.reference name splat loc).Spelled P :=
  .of_children rfl nofun

/-! ## Safe parts -/

/-- The kinds that can be values. -/
def Kind.isExpression : Kind → Bool
  | .identifier | .memberAccess | .call | .subscript | .binaryOperator | .booleanOperator
  | .comparisonOperator | .notOperator | .unaryOperator | .conditionalExpression
  | .parenthesizedExpression | .lambda | .string | .integer | .float | .trueLiteral
  | .falseLiteral | .noneLiteral | .list | .tuple | .expressionList | .dictionary => true
  | _ => false

/-- Every type in the statement has the property. -/
def Stmt.Types (P : String → Prop) (st : Stmt) : Prop :=
  ∀ s, st.Spelled P s

/-- Every type in the choice has the property. -/
def Choice.Types (P : String → Prop) : Choice → Prop
  | .mk test body => (∀ e ∈ test, e.Spelled P) ∧ ∀ st ∈ body, st.Types P

/-- **The part is built or refused in every role.** Where only some kinds
can play a role, only they have to. -/
structure Part.Safe (P : String → Prop) (p : Part) : Prop where
  type : p.kind = .type → P p.text
  statement : ∀ c, (p.statement c).Gives fun o => ∀ st ∈ o, st.Types P
  expression : ∀ c, (p.expression c).Gives (Expr.Spelled P)
  /-- What cannot be a value is refused as one. -/
  foreign : p.kind.isExpression = false → ∀ c, (p.expression c).Gives fun _ => False
  argument : ∀ c, (p.argument c).Gives (Expr.Spelled P)
  element : ∀ c, (p.element c).Gives (Expr.Spelled P)
  target : ∀ c, (p.target c).Gives (Expr.Spelled P)
  parameter : ∀ c, (p.parameter c).Gives fun o => ∀ e ∈ o, e.Spelled P
  body : ∀ c, (p.body c).Gives fun ss => ∀ st ∈ ss, st.Types P
  arguments : ∀ c, (p.arguments c).Gives fun es => ∀ e ∈ es, e.Spelled P
  parameters : ∀ c, (p.parameters c).Gives fun es => ∀ e ∈ es, e.Spelled P
  choice : ∀ c, (p.choice c).Gives (Choice.Types P)
  assignment : p.kind = .assignment ∨ p.kind = .augmentedAssignment →
    ∀ c, (p.assignment c).Gives (Stmt.Types P)
  definition : ∀ ds c, (p.definition ds c).Gives (Stmt.Types P)
  entry : ∀ c, (p.entry c).Gives (Expr.Spelled P)
  bounds : p.kind = .slice → ∀ c, (p.bounds c).Gives (Expr.Spelled P)
  starred : ∀ c, (p.starred c).Gives fun _ => True

/-- **What the parser promises of a node**, given that its parts are
safe. -/
structure Branch.Safe (P : String → Prop) (b : Branch) : Prop where
  parts : ∀ p ∈ b.parts, p.Safe P
  headed : b.kind ∈ [.call, .subscript, .assignment, .augmentedAssignment] → b.parts ≠ []
  /-- No value stands behind the third colon of a slice. -/
  bounded : b.kind = .slice → ∀ k : Kind, k.isExpression = true →
    ¬ [.token ":", .token ":", .token ":", k].Sublist (b.parts.map Part.kind)
  type : b.kind = .type → P b.text

namespace Branch

variable {b : Branch} {c inner : Context}

/-- The parts that are left without some tokens are safe like all. -/
theorem safe_of_partsWithout (hb : ∀ p ∈ b.parts, p.Safe P) {names : List String}
    {ps : List Part} (h : b.partsWithout names = ps) : ∀ p ∈ ps, p.Safe P :=
  fun p hp => hb p (mem_of_mem_partsWithout (h ▸ hp))

/-- Parts that are safe fail for a construct that is not supported. -/
theorem safe_failsAt {ps : List Part} (hps : ∀ p ∈ ps, p.Safe P) {e : Failure}
    (h : FailsAt c ps e) : e.IsUnsupported := by
  obtain ⟨p, hp, hfails⟩ := h
  cases hfails with
  | refused => exact ⟨_, _, _, rfl⟩
  | expression h => exact ((hps p hp).expression c).unsupported e h
  | target h => exact ((hps p hp).target c).unsupported e h
  | parameters h => exact ((hps p hp).parameters c).unsupported e h
  | arguments h => exact ((hps p hp).arguments c).unsupported e h
  | body h => exact ((hps p hp).body c).unsupported e h

/-! ## Parameters -/

/-- Only identifiers have names, and everything else is refused. -/
theorem gives_name (p : Part) (c : Context) : (p.name c).Gives fun _ => True := by
  unfold Part.name
  split
  · exact .pure trivial
  · exact .refuse ..

/-- Behind the stars a name is read, or something refused. -/
theorem gives_starred (b : Branch) (c : Context) : (b.starred c).Gives fun _ => True := by
  unfold starred
  split
  · exact (gives_name _ _).bind fun _ _ => .pure trivial
  · exact .refuse ..

theorem gives_starredReference (b : Branch) (c : Context) :
    (b.starredReference c).Gives (Expr.Spelled P) :=
  (gives_starred b c).bind fun _ _ => .pure (spelled_reference)

theorem gives_defaultParameter (hb : ∀ p ∈ b.parts, p.Safe P) :
    (b.defaultParameter c).Gives (Expr.Spelled P) := by
  unfold defaultParameter
  split
  · rename_i p d hparts
    have hd := safe_of_partsWithout hb hparts d (by simp)
    exact (hd.expression _).bind fun value hvalue => (gives_name _ _).bind fun _ _ =>
      .pure (.of_children rfl (by simpa [Expr.children] using hvalue))
  · exact .refuse ..

/-- **The type is spelled as its part is**, which is one of the parts with
kind `type`. -/
theorem gives_typedParameter (hb : ∀ p ∈ b.parts, p.Safe P) :
    (b.typedParameter c).Gives (Expr.Spelled P) := by
  unfold typedParameter
  split
  · rename_i p t hparts
    have hps := safe_of_partsWithout hb hparts
    split
    · exact .refuse ..
    · rename_i hkind
      have htype : P t.text := (hps t (by simp)).type (Decidable.not_not.1 hkind)
      have hspelled : ∀ {name splat loc}, (Expr.typedParameter name t.text splat loc).Spelled P :=
        Expr.spelled_iff.2 ⟨by simpa [Expr.spellings] using htype, nofun⟩
      split
      · exact ((hps p (by simp)).starred _).bind fun _ _ => .pure hspelled
      · exact (gives_name _ _).bind fun _ _ => .pure hspelled
  · exact .refuse ..

/-- The type is spelled as its part is, and the default has types of its own.
-/
theorem gives_typedDefaultParameter (hb : ∀ p ∈ b.parts, p.Safe P) :
    (b.typedDefaultParameter c).Gives (Expr.Spelled P) := by
  unfold typedDefaultParameter
  split
  · rename_i p t d hparts
    have hps := safe_of_partsWithout hb hparts
    split
    · exact .refuse ..
    · rename_i hkind
      have htype : P t.text := (hps t (by simp)).type (Decidable.not_not.1 hkind)
      exact ((hps d (by simp)).expression _).bind fun value hvalue =>
        (gives_name _ _).bind fun _ _ => .pure (Expr.spelled_iff.2
          ⟨by simpa [Expr.spellings] using htype, by simpa [Expr.children] using hvalue⟩)
  · exact .refuse ..

/-- Every kind of parameter is built or refused. A separator alone gives none.
-/
theorem gives_parameter (hb : ∀ p ∈ b.parts, p.Safe P) :
    (b.parameter c).Gives fun o => ∀ e ∈ o, e.Spelled P := by
  have hsome : ∀ {x : Traced Expr}, x.Gives (Expr.Spelled P) →
      (some <$> x).Gives fun o => ∀ e ∈ o, e.Spelled P :=
    fun hx => hx.map fun e he => by simpa using he
  unfold parameter
  split
  · exact .pure (by simpa [reference] using spelled_reference)
  · exact hsome (gives_defaultParameter hb)
  · exact hsome (gives_typedParameter hb)
  · exact hsome (gives_typedDefaultParameter hb)
  · exact hsome (gives_starredReference b c)
  · exact hsome (gives_starredReference b c)
  · exact .of_result rfl nofun
  · exact .of_result rfl nofun
  · exact .refuse ..

theorem gives_parameters (hb : ∀ p ∈ b.parts, p.Safe P) :
    (b.parameters c).Gives fun es => ∀ e ∈ es, e.Spelled P := by
  refine (gives_buildEach fun p hp => (hb p (mem_of_mem_partsWithout hp)).parameter _).bind
    fun os hos => .pure fun e he => ?_
  obtain ⟨o, ho, rfl⟩ := List.mem_filterMap.1 he
  exact hos _ ho e rfl

/-- The parts of a function without a name are parameters, a body, or refused.
-/
theorem gives_lambdaParts {ps : List Part} (hps : ∀ p ∈ ps, p.Safe P) {es : List Expr}
    {body : Option Expr} (hes : ∀ e ∈ es, e.Spelled P) (hbody : ∀ e ∈ body, e.Spelled P) :
    (lambdaParts inner es body ps).Gives fun q =>
      (∀ e ∈ q.1, e.Spelled P) ∧ ∀ e ∈ q.2, e.Spelled P := by
  refine ⟨?_, fun e h => safe_failsAt hps (lambdaParts_eq_error h)⟩
  rintro ⟨es', body'⟩ h
  obtain ⟨hes', hbody'⟩ := lambdaParts_eq_ok h
  constructor
  · exact hes'.forall_all hes fun p hp => ((hps p hp).parameters _).ok
  · exact hbody'.forall_some hbody fun p hp => ((hps p hp).expression _).ok

theorem gives_lambda (hb : ∀ p ∈ b.parts, p.Safe P) :
    (b.lambda c).Gives (Expr.Spelled P) := by
  refine (gives_lambdaParts hb (by simp) (by simp)).bind fun q hq => ?_
  obtain ⟨ps, body⟩ := q
  cases body with
  | none => exact .refuse ..
  | some e =>
    refine .pure (.of_children rfl fun k hk => ?_)
    rcases List.mem_append.1 hk with hk | hk
    · exact hq.1 k hk
    · obtain rfl := List.mem_singleton.1 hk
      exact hq.2 k rfl

/-! ## Sequences and dictionaries -/

theorem spelled_sequence {kind : SequenceKind} {is : List (Option Expr)} {loc : Option Location}
    (h : ∀ e, some e ∈ is → e.Spelled P) : (Expr.sequence kind is loc).Spelled P :=
  .of_children rfl (by simpa [Expr.children] using h)

/-- The elements of a sequence have the types of the sequence. -/
theorem gives_elements (hb : ∀ p ∈ b.parts, p.Safe P) (kind : SequenceKind) :
    (b.elements kind c).Gives (Expr.Spelled P) :=
  (gives_buildItems (by simp) fun p hp => (hb p hp).element _).bind fun _ his =>
    .pure (spelled_sequence his)

theorem gives_targets (hb : ∀ p ∈ b.parts, p.Safe P) (kind : SequenceKind) :
    (b.targets kind c).Gives (Expr.Spelled P) :=
  (gives_buildItems (by simp) fun p hp => (hb p hp).target _).bind fun _ his =>
    .pure (spelled_sequence his)

/-- The entries of a dictionary have its types. -/
theorem gives_dictionary (hb : ∀ p ∈ b.parts, p.Safe P) :
    (b.dictionary c).Gives (Expr.Spelled P) := by
  refine (gives_buildEach (Q := Expr.Spelled P) fun p hp => ?_).bind fun es hes =>
    .pure (.of_children rfl hes)
  have hp := hb p (mem_of_mem_partsWithout hp)
  split
  · exact hp.entry _
  · exact hp.argument _
  · exact .refuse ..

theorem gives_pair (hb : ∀ p ∈ b.parts, p.Safe P) : (b.pair c).Gives (Expr.Spelled P) := by
  unfold pair
  split
  · rename_i k v hparts
    have hps := safe_of_partsWithout hb hparts
    exact ((hps k (by simp)).expression _).bind fun key hkey =>
      ((hps v (by simp)).expression _).bind fun value hvalue =>
        .pure (.of_children rfl (by simp [Expr.children, hkey, hvalue]))
  · exact .refuse ..

/-! ## Access and calls -/

/-- A property spells no type, the object may. -/
theorem gives_memberAccess (hb : ∀ p ∈ b.parts, p.Safe P) :
    (b.memberAccess c).Gives (Expr.Spelled P) := by
  unfold memberAccess
  split
  · rename_i o p hparts
    have ho := safe_of_partsWithout hb hparts o (by simp)
    split
    · exact .refuse ..
    · exact (ho.expression _).bind fun object hobject =>
        .pure (.of_children rfl (by simp [Expr.children, hobject, spelled_reference]))
  · exact .refuse ..

/-- **A call with a part builds or refuses.** Only without any part it breaks
off. -/
theorem gives_call (hb : ∀ p ∈ b.parts, p.Safe P) (hne : b.parts ≠ []) :
    (b.call c).Gives (Expr.Spelled P) := by
  unfold call
  split
  · rename_i f as hparts
    have hf := hb f (by simp [hparts])
    have has := hb as (by simp [hparts])
    split
    · exact .refuse ..
    · exact (hf.expression _).bind fun callee hcallee => (has.arguments _).bind fun es hes =>
        .pure (.of_children rfl (List.forall_mem_cons.2 ⟨hcallee, hes⟩))
  · exact .refuse ..
  · rename_i hlast _
    exact absurd (List.getLast?_eq_none_iff.1 hlast) hne

/-- The arguments of a call are built or refused one by one. -/
theorem gives_arguments (hb : ∀ p ∈ b.parts, p.Safe P) :
    (b.arguments c).Gives fun es => ∀ e ∈ es, e.Spelled P :=
  gives_buildEach fun p hp => (hb p (mem_of_mem_partsWithout hp)).argument _

theorem gives_keywordArgument (hb : ∀ p ∈ b.parts, p.Safe P) :
    (b.keywordArgument c).Gives (Expr.Spelled P) := by
  unfold keywordArgument
  split
  · rename_i n v hparts
    have hv := safe_of_partsWithout hb hparts v (by simp)
    split
    · exact .refuse ..
    · exact (hv.expression _).bind fun value hvalue =>
        .pure (.of_children rfl (by simpa [Expr.children] using hvalue))
  · exact .refuse ..

/-- A spread name is a name and spells no type. -/
theorem gives_splat (b : Branch) (c : Context) : (b.splat c).Gives (Expr.Spelled P) := by
  unfold splat
  split
  · split
    · split
      · exact .refuse ..
      · exact .pure (spelled_reference)
    · exact .refuse ..
  · exact .refuse ..

/-- An index is a slice or a value. -/
theorem gives_index {p : Part} (hp : p.Safe P) : (index p inner).Gives (Expr.Spelled P) := by
  unfold index
  split
  · rename_i hkind
    exact hp.bounds hkind _
  · exact hp.expression _

/-- **A subscript with a part builds or refuses.** Several indices are those
of a tuple, which spells no type itself. -/
theorem gives_subscript (hb : ∀ p ∈ b.parts, p.Safe P) (hne : b.parts ≠ []) :
    (b.subscript c).Gives (Expr.Spelled P) := by
  unfold subscript
  split
  · rename_i hparts
    exact absurd hparts hne
  · rename_i v rest hparts
    have hv := hb v (by simp [hparts])
    have hrest : ∀ p ∈ rest.filter (!·.isTokenOf ["[", "]", ","]), p.Safe P := fun p hp =>
      hb p (hparts ▸ List.mem_cons_of_mem _ (List.mem_filter.1 hp).1)
    refine (hv.expression _).bind fun value hvalue =>
      (gives_buildEach fun p hp => gives_index (hrest p hp)).bind fun is his => ?_
    split
    · exact .refuse ..
    · exact .pure (.of_children rfl (by simp_all [Expr.children]))
    · have htuple : (Expr.sequence .tuple (is.map some) none).Spelled P :=
        spelled_sequence (by simpa using his)
      exact .pure (.of_children rfl (by simp [Expr.children, hvalue, htuple]))

/-! ## Slices -/

/-- The bounds that are there spell the types with the property. -/
def Bounds.Types (P : String → Prop) (bs : Bounds) : Prop :=
  ∀ e, e ∈ bs.start ∨ e ∈ bs.stop ∨ e ∈ bs.step → e.Spelled P

/-- **Filling the bounds.** At place `place` there are `3 - place` colons
left before which a value may stand, so no value comes too late. -/
theorem unsupported_of_buildBounds {ps : List Part} (hps : ∀ p ∈ ps, p.Safe P) {place : Nat}
    {bs : Bounds} (hbounded : ∀ k : Kind, k.isExpression = true →
      ¬ (List.replicate (3 - place) (Kind.token ":") ++ [k]).Sublist (ps.map Part.kind))
    {e : Failure} (h : (buildBounds inner place bs ps).result = .error e) : e.IsUnsupported := by
  induction ps generalizing place bs with
  | nil => cases h
  | cons p ps ih =>
    obtain ⟨hp, hps'⟩ := List.forall_mem_cons.1 hps
    unfold buildBounds at h
    split at h
    · rename_i hcolon
      refine ih hps' (fun k hk hsub => hbounded k hk ?_) h
      have hkind : p.kind = .token ":" := beq_iff_eq.1 hcolon
      rw [List.map_cons, hkind]
      by_cases hplace : place < 3
      · -- the colon is one of those that were left
        rw [show 3 - place = 3 - (place + 1) + 1 by omega, List.replicate_succ, List.cons_append]
        exact hsub.cons_cons _
      · rw [show 3 - place = 3 - (place + 1) by omega]
        exact hsub.cons _
    · rcases Traced.bind_eq_error.1 h with h | ⟨x, hx, h⟩
      · exact (hp.expression _).unsupported e h
      by_cases hplace : place < 3
      · split at h
        · exact ih hps' (fun k hk hsub => hbounded k hk (hsub.cons _)) h
        · rename_i hset
          match place, hplace with
          | 0, _ | 1, _ | 2, _ => cases hset
      · -- behind the last place there is no value
        have hforeign : p.kind.isExpression = false := by
          refine Bool.eq_false_iff.2 fun hk => hbounded p.kind hk ?_
          rw [show 3 - place = 0 by omega, List.map_cons]
          exact (List.nil_sublist _).cons_cons _
        exact ((hp.foreign hforeign _).ok x hx).elim

/-- The bounds that are filled have types with the property, and what fails is
not supported. -/
theorem gives_buildBounds {ps : List Part} (hps : ∀ p ∈ ps, p.Safe P) {place : Nat} {bs : Bounds}
    (hbs : bs.Types P) (hbounded : ∀ k : Kind, k.isExpression = true →
      ¬ (List.replicate (3 - place) (Kind.token ":") ++ [k]).Sublist (ps.map Part.kind)) :
    (buildBounds inner place bs ps).Gives (Bounds.Types P) := by
  refine ⟨fun bs' h => ?_, fun e h => unsupported_of_buildBounds hps hbounded h⟩
  exact (buildBounds_eq_ok h).forall_bounds hbs fun p hp => ((hps p hp).expression _).ok

/-- **A slice builds or refuses**, as the parser leaves no value behind a
third colon. -/
theorem gives_bounds (hb : b.Safe P) (hkind : b.kind = .slice) :
    (b.bounds c).Gives (Expr.Spelled P) := by
  have hbuild : (buildBounds (c.within b.kind) 0 ⟨none, none, none⟩ b.parts).Gives
      (Bounds.Types P) :=
    gives_buildBounds hb.parts (by simp [Bounds.Types]) (hb.bounded hkind)
  refine hbuild.bind fun bs hbs => .pure (.of_children rfl fun e he => hbs e ?_)
  simpa [Expr.children, or_assoc] using he

/-! ## Operators -/

/-- A part that denotes no operator is refused. -/
theorem gives_operator (p : Part) (inner : Context) :
    (operator p inner).Gives fun _ => True := by
  unfold operator
  split
  · exact .pure trivial
  · exact .refuse ..

theorem spelled_binary {left right : Expr} {op : BinaryOp} {loc : Option Location}
    (hl : left.Spelled P) (hr : right.Spelled P) : (Expr.binary left op right loc).Spelled P :=
  .of_children rfl (by simp [Expr.children, hl, hr])

theorem gives_binary (hb : ∀ p ∈ b.parts, p.Safe P) : (b.binary c).Gives (Expr.Spelled P) := by
  unfold binary
  split
  · rename_i l o r hparts
    exact ((hb l (by simp [hparts])).expression _).bind fun left hleft =>
      (gives_operator _ _).bind fun op _ =>
        ((hb r (by simp [hparts])).expression _).bind fun right hright =>
          .pure (spelled_binary hleft hright)
  · exact .refuse ..

/-- A conjunction has the types of the comparisons in it. -/
theorem spelled_conjunction {loc : Option Location} {first : Expr} {rest : List Expr}
    (hfirst : first.Spelled P) (hrest : ∀ e ∈ rest, e.Spelled P) :
    (conjunction loc first rest).Spelled P := by
  unfold conjunction
  induction rest generalizing first with
  | nil => exact hfirst
  | cons e rest ih =>
    obtain ⟨he, hrest⟩ := List.forall_mem_cons.1 hrest
    exact ih (spelled_binary hfirst he) hrest

theorem gives_comparison {loc : Option Location} {t : Part × Part × Part} (hl : t.1.Safe P)
    (hr : t.2.2.Safe P) : (comparison loc inner t).Gives (Expr.Spelled P) :=
  (hl.expression _).bind fun _ hleft => (gives_operator _ _).bind fun _ _ =>
    (hr.expression _).bind fun _ hright => .pure (spelled_binary hleft hright)

/-- The operands of comparisons in a chain are among its parts. -/
theorem gives_chain (hb : ∀ p ∈ b.parts, p.Safe P) : (b.chain c).Gives (Expr.Spelled P) := by
  unfold chain
  split
  · exact .refuse ..
  · refine (gives_buildEach (Q := Expr.Spelled P) fun t ht => ?_).bind fun es hes => ?_
    · obtain ⟨hl, -, hr⟩ := mem_of_mem_comparisons ht
      exact gives_comparison (hb _ hl) (hb _ hr)
    · split
      · obtain ⟨hfirst, hrest⟩ := List.forall_mem_cons.1 hes
        exact .pure (spelled_conjunction hfirst hrest)
      · exact .refuse ..

theorem gives_negation (hb : ∀ p ∈ b.parts, p.Safe P) :
    (b.negation c).Gives (Expr.Spelled P) := by
  unfold negation
  split
  · rename_i p hparts
    have hp := safe_of_partsWithout hb hparts p (by simp)
    exact (hp.expression _).bind fun e he =>
      .pure (.of_children rfl (by simpa [Expr.children] using he))
  · exact .refuse ..

theorem gives_unary (hb : ∀ p ∈ b.parts, p.Safe P) : (b.unary c).Gives (Expr.Spelled P) := by
  unfold unary
  split
  · rename_i o p hparts
    have hp := hb p (by simp [hparts])
    split
    · exact .refuse ..
    · exact (hp.expression _).bind fun e he =>
        .pure (.of_children rfl (by simpa [Expr.children] using he))
  · exact .refuse ..

theorem gives_conditional (hb : ∀ p ∈ b.parts, p.Safe P) :
    (b.conditional c).Gives (Expr.Spelled P) := by
  unfold conditional
  split
  · rename_i x t y hparts
    have hps := safe_of_partsWithout hb hparts
    exact ((hps x (by simp)).expression _).bind fun consequence hthen =>
      ((hps t (by simp)).expression _).bind fun test htest =>
        ((hps y (by simp)).expression _).bind fun alternative helse =>
          .pure (.of_children rfl (by simp [Expr.children, htest, hthen, helse]))
  · exact .refuse ..

theorem gives_parenthesized (hb : ∀ p ∈ b.parts, p.Safe P) :
    (b.parenthesized c).Gives (Expr.Spelled P) := by
  unfold parenthesized
  split
  · rename_i p hparts
    have hp := safe_of_partsWithout hb hparts p (by simp)
    exact (hp.expression _).bind fun e he =>
      .pure (.of_children rfl (by simpa [Expr.children] using he))
  · exact .refuse ..

/-- A formatted literal is refused, and no literal spells a type. -/
theorem gives_string (b : Branch) : b.string.Gives (Expr.Spelled P) := by
  unfold string
  split
  · exact ⟨nofun, fun _ h => ⟨_, _, _, (Except.error.inj h).symm⟩⟩
  · exact .pure (.of_children rfl nofun)

/-! ## Roles -/

/-- **Every value is built or refused** by the rule for its kind; what has no
rule is refused. -/
theorem gives_expression (hb : b.Safe P) : (b.expression c).Gives (Expr.Spelled P) := by
  have hparts := hb.parts
  unfold expression
  split
  · exact .pure (spelled_reference)
  · exact gives_memberAccess hparts
  · rename_i hkind
    exact gives_call hparts (hb.headed (by simp [hkind]))
  · rename_i hkind
    exact gives_subscript hparts (hb.headed (by simp [hkind]))
  · exact gives_binary hparts
  · exact gives_binary hparts
  · exact gives_chain hparts
  · exact gives_negation hparts
  · exact gives_unary hparts
  · exact gives_conditional hparts
  · exact gives_parenthesized hparts
  · exact gives_lambda hparts
  · exact gives_string b
  · exact .pure (.of_children rfl nofun)
  · exact .pure (.of_children rfl nofun)
  · exact .pure (.of_children rfl nofun)
  · exact .pure (.of_children rfl nofun)
  · exact .pure (.of_children rfl nofun)
  · exact gives_elements hparts .list
  · exact gives_elements hparts .tuple
  · exact gives_elements hparts .tuple
  · exact gives_dictionary hparts
  · exact .refuse ..

/-- What cannot be a value is refused as one. -/
theorem gives_foreign (h : b.kind.isExpression = false) :
    (b.expression c).Gives fun _ => False := by
  unfold Kind.isExpression at h
  split at h
  all_goals cases h
  unfold expression
  split <;> first | exact .refuse .. | simp_all

/-- An argument is passed by name, spread, or a value. -/
theorem gives_argument (hb : b.Safe P) : (b.argument c).Gives (Expr.Spelled P) := by
  unfold argument
  split
  · exact gives_keywordArgument hb.parts
  · exact gives_splat b c
  · exact gives_splat b c
  · exact gives_expression hb

theorem gives_element (hb : b.Safe P) : (b.element c).Gives (Expr.Spelled P) := by
  unfold element
  split
  · exact gives_splat b c
  · exact gives_expression hb

/-- A target has a rule of its own or is refused. -/
theorem gives_target (hb : b.Safe P) : (b.target c).Gives (Expr.Spelled P) := by
  have hparts := hb.parts
  unfold target
  split
  · exact .pure (spelled_reference)
  · exact gives_memberAccess hparts
  · rename_i hkind
    exact gives_subscript hparts (hb.headed (by simp [hkind]))
  · exact gives_targets hparts .pattern
  · exact gives_targets hparts .tuple
  · exact gives_targets hparts .list
  · exact gives_starredReference b c
  · exact .refuse ..

end Branch

end Scribe
