import Scribe.Proofs.Emit.Nesting
import Scribe.Proofs.Syntax.Induction

/-!
# Where an expression stands

A part of a construct plays a role there: it is called, passed, assigned
to, indexed with. `Expr.parts` lists the parts of an expression with
their roles, `Stmt.parts` those of a statement outside its bodies, and
`Program.HasAt` says that an expression stands somewhere in a program,
and in which role.

A role admits what the grammar of built programs lets play it.
`Expr.At.admits` goes down from an expression to everything inside it.
`Expr.forall_at_iff` and `Stmt.forall_holds_iff` take one step down, for
proofs that go along the syntax.
-/

namespace Scribe

variable {r r' : Role} {e x : Expr}

/-! ## Parts and their roles -/

/-- The role of the items of a sequence that plays the role `r` itself:
what is assigned to hands its role on, and the items of a tuple between
brackets are indices. -/
def Role.ofItem (r : Role) (kind : SequenceKind) : Role :=
  match r, kind with
  | .target, _ => .target
  | .index, .tuple => .indexItem
  | _, _ => .element

/-- The parts of an expression that plays the role `r`, each with the
role it plays there. -/
def Expr.parts (r : Role) : Expr → List (Role × Expr)
  | .defaultParameter _ value _ => [(.value, value)]
  | .typedDefaultParameter _ _ value _ => [(.value, value)]
  | .call callee arguments _ => (.value, callee) :: arguments.map (.argument, ·)
  | .keywordArgument _ value _ => [(.value, value)]
  | .member object property _ => [(.value, object), (.value, property)]
  | .subscript value index _ => [(.value, value), (.index, index)]
  | .slice start stop step _ =>
    (start.toList ++ stop.toList ++ step.toList).map (.value, ·)
  | .binary left _ right _ => [(.value, left), (.value, right)]
  | .not operand _ => [(.value, operand)]
  | .unary _ operand _ => [(.value, operand)]
  | .conditional test consequence alternative _ =>
    [(.value, test), (.value, consequence), (.value, alternative)]
  | .parenthesized inner _ => [(.value, inner)]
  | .lambda parameters body _ => parameters.map (.parameter, ·) ++ [(.value, body)]
  | .sequence kind items _ => (items.filterMap id).map (r.ofItem kind, ·)
  | .dictionary entries _ => entries.map (.entry, ·)
  | .pair key value _ => [(.value, key), (.value, value)]
  | _ => []

/-- **`x` stands inside `e` in the role `r'`**, where `e` plays the role
`r`: it is `e`, or it stands inside one of its parts. -/
inductive Expr.At : Role → Expr → Role → Expr → Prop
  | refl {r : Role} {e : Expr} : Expr.At r e r e
  | part {r r' : Role} {e x : Expr} {q : Role × Expr} : q ∈ e.parts r → Expr.At q.1 q.2 r' x →
      Expr.At r e r' x

/-- The tests of the choices that have one. -/
def Choice.tests : List Choice → List Expr
  | [] => []
  | .mk test _ :: choices => test.toList ++ Choice.tests choices

/-- The expressions of a statement outside its bodies, each with the
role it plays there. -/
def Stmt.parts : Stmt → List (Role × Expr)
  | .expression value => [(.value, value)]
  | .assignment left right _ _ _ => (.target, left) :: right.toList.map (.value, ·)
  | .function _ parameters _ _ _ _ => parameters.map (.parameter, ·)
  | .classDefinition _ _ arguments _ _ => (arguments.getD []).map (.argument, ·)
  | .conditional choices _ => (Choice.tests choices).map (.value, ·)
  | .forLoop left right _ _ => [(.target, left), (.value, right)]
  | .whileLoop test _ _ => [(.value, test)]
  | .returning value _ => value.toList.map (.value, ·)
  | .raising value _ => [(.value, value)]
  | .simple .. => []
  | .comment .. => []

/-- The statement is a body item somewhere in the program. -/
def Program.Has (p : Program) (st : Stmt) : Prop :=
  ∃ outer ∈ p.body, ∃ d s, outer.Holds .top d s st

/-- The expression stands somewhere in the program, in the role `r`. -/
def Program.HasAt (p : Program) (r : Role) (x : Expr) : Prop :=
  ∃ st, p.Has st ∧ ∃ q ∈ st.parts, Expr.At q.1 q.2 r x

theorem Choice.mem_tests {choices : List Choice} :
    e ∈ Choice.tests choices ↔ ∃ body, .mk (some e) body ∈ choices := by
  induction choices with
  | nil => simp [Choice.tests]
  | cons c choices ih =>
    obtain ⟨test, body⟩ := c
    rw [Choice.tests, List.mem_append, ih, Option.mem_toList]
    constructor
    · rintro (rfl | ⟨body', h⟩)
      · exact ⟨body, List.mem_cons_self ..⟩
      · exact ⟨body', List.mem_cons_of_mem _ h⟩
    · rintro ⟨body', h⟩
      rcases List.mem_cons.1 h with h | h
      · exact .inl (Choice.mk.inj h).1.symm
      · exact .inr ⟨body', h⟩

/-- **One step down.** What holds inside an expression holds of the
expression and inside its parts. -/
theorem Expr.forall_at_iff {P : Role → Expr → Prop} :
    (∀ r' x, e.At r r' x → P r' x) ↔
      P r e ∧ ∀ q ∈ e.parts r, ∀ r' x, q.2.At q.1 r' x → P r' x := by
  constructor
  · intro h
    exact ⟨h r e .refl, fun q hq r' x hx => h r' x (.part hq hx)⟩
  · rintro ⟨hself, hparts⟩ r' x hx
    cases hx with
    | refl => exact hself
    | part hq hx => exact hparts _ hq r' x hx

/-! ## Statements one step down -/

/-- The statements in the bodies of the choices. -/
def Choice.bodies : List Choice → List Stmt
  | [] => []
  | .mk _ body :: choices => body ++ Choice.bodies choices

theorem Choice.mem_bodies {choices : List Choice} {st : Stmt} :
    st ∈ Choice.bodies choices ↔ ∃ test body, .mk test body ∈ choices ∧ st ∈ body := by
  induction choices with
  | nil => simp [Choice.bodies]
  | cons c choices ih =>
    obtain ⟨test, body⟩ := c
    rw [Choice.bodies, List.mem_append, ih]
    constructor
    · rintro (h | ⟨test', body', hc, h⟩)
      · exact ⟨test, body, List.mem_cons_self .., h⟩
      · exact ⟨test', body', List.mem_cons_of_mem _ hc, h⟩
    · rintro ⟨test', body', hc, h⟩
      rcases List.mem_cons.1 hc with hc | hc
      · obtain ⟨rfl, rfl⟩ := Choice.mk.inj hc
        exact .inl h
      · exact .inr ⟨test', body', hc, h⟩

/-- The statements in the bodies of a statement that is written in the
scope `s`, each with the scope it is written in. -/
def Stmt.inner (s : Scope) : Stmt → List (Scope × Stmt)
  | .function _ parameters body _ decorators _ =>
    body.map (s.enterFunction (s.receiverInside decorators parameters), ·)
  | .classDefinition name body _ _ _ => body.map (s.enterClass name, ·)
  | .conditional choices _ => (Choice.bodies choices).map (s, ·)
  | .forLoop _ _ body _ => body.map (s, ·)
  | .whileLoop _ body _ => body.map (s, ·)
  | _ => []

/-- What a statement in a body holds is held one level deeper. -/
theorem Stmt.Holds.of_inner {s s' : Scope} {st inner : Stmt} {d : Nat} {q : Scope × Stmt}
    (hq : q ∈ st.inner s) (h : q.2.Holds q.1 d s' inner) : st.Holds s (d + 1) s' inner := by
  cases st with
  | function name parameters body returnType decorators loc =>
    obtain ⟨b, hb, rfl⟩ := List.mem_map.1 hq
    exact .function hb h
  | classDefinition name body arguments decorators loc =>
    obtain ⟨b, hb, rfl⟩ := List.mem_map.1 hq
    exact .classDefinition hb h
  | conditional choices loc =>
    obtain ⟨b, hb, rfl⟩ := List.mem_map.1 hq
    obtain ⟨test, body, hc, hb⟩ := Choice.mem_bodies.1 hb
    exact .conditional hc hb h
  | forLoop left right body loc =>
    obtain ⟨b, hb, rfl⟩ := List.mem_map.1 hq
    exact .forLoop hb h
  | whileLoop test body loc =>
    obtain ⟨b, hb, rfl⟩ := List.mem_map.1 hq
    exact .whileLoop hb h
  | _ => cases hq

/-- **One step down.** What holds of everything a statement holds, holds
of the statement and of everything that the statements in its bodies
hold. -/
theorem Stmt.forall_holds_iff {P : Scope → Stmt → Prop} {s : Scope} {st : Stmt} :
    (∀ d s' inner, st.Holds s d s' inner → P s' inner) ↔
      P s st ∧ ∀ q ∈ st.inner s, ∀ d s' inner, q.2.Holds q.1 d s' inner → P s' inner := by
  constructor
  · intro h
    exact ⟨h 0 s st .self, fun q hq d s' inner hin => h (d + 1) s' inner (.of_inner hq hin)⟩
  · rintro ⟨hself, hinner⟩ d s' inner hin
    cases hin with
    | self => exact hself
    | function hb hin => exact hinner _ (List.mem_map_of_mem hb) _ _ _ hin
    | classDefinition hb hin => exact hinner _ (List.mem_map_of_mem hb) _ _ _ hin
    | conditional hc hb hin =>
      exact hinner _ (List.mem_map_of_mem (Choice.mem_bodies.2 ⟨_, _, hc, hb⟩)) _ _ _ hin
    | forLoop hb hin => exact hinner _ (List.mem_map_of_mem hb) _ _ _ hin
    | whileLoop hb hin => exact hinner _ (List.mem_map_of_mem hb) _ _ _ hin

/-! ## What a role admits -/

/-- The role admits the expression. An item of a tuple between brackets
may also be an element of the tuple: the tuple can be an index like any
other. -/
def Role.Admits (r : Role) (e : Expr) : Prop :=
  e.fits r = true ∨ r = .indexItem ∧ e.fits .element = true

/-- Only the items of a tuple have two readings. -/
theorem Role.Admits.fits (h : r.Admits e) (hr : r ≠ .indexItem) : e.fits r = true :=
  h.resolve_right fun h' => hr h'.1

theorem Role.admits_item {kind : SequenceKind} {items : List (Option Expr)}
    {loc : Option Location} (h : (Expr.sequence kind items loc).fits r = true)
    (hx : some x ∈ items) : (r.ofItem kind).Admits x := by
  simp only [Expr.fits, Bool.or_eq_true, Bool.and_eq_true, Expr.itemsFit_iff, beq_iff_eq] at h
  rcases h with (⟨⟨hvalue, -⟩, hitems⟩ | ⟨rfl, hitems⟩) | ⟨⟨rfl, rfl⟩, hitems⟩
  · have hfits := hitems x hx
    by_cases hindex : r.ofItem kind = .indexItem
    · exact .inr ⟨hindex, hfits⟩
    · -- a role that takes values is not a target's, and the tuple between brackets is done
      have helement : r.ofItem kind = .element := by
        cases r <;> cases kind <;> simp_all [Role.ofItem, Role.takesValue]
      exact .inl (helement ▸ hfits)
  · exact .inl (hitems x hx)
  · exact .inl (hitems x hx)

/-- **The parts of what fits a role are admitted by theirs.** -/
theorem Expr.parts_admitted (h : e.fits r = true) : ∀ q ∈ e.parts r, q.1.Admits q.2 := by
  cases e with
  | sequence kind items loc =>
    intro q hq
    simp only [Expr.parts, List.mem_map, List.mem_filterMap, id_eq, exists_eq_right] at hq
    obtain ⟨y, hy, rfl⟩ := hq
    exact Role.admits_item h hy
  | member object property loc =>
    simp only [Expr.fits, Bool.and_eq_true] at h
    have hproperty : property.fits .value = true := by
      cases property with
      | reference name splat loc => cases splat <;> simp_all [Expr.isName, Expr.fits]
      | _ => simp [Expr.isName] at h
    simp [Expr.parts, Role.Admits, h.1.2, hproperty]
  | _ => simp_all [Expr.parts, Expr.fits, Role.Admits, or_imp, forall_and]

theorem Expr.parts_admits (h : r.Admits e) : ∀ q ∈ e.parts r, q.1.Admits q.2 := by
  rcases h with h | ⟨rfl, h⟩
  · exact Expr.parts_admitted h
  · -- as an item or as an element, an expression has the same parts in the same roles
    have hparts : e.parts .indexItem = e.parts .element := by
      cases e with
      | sequence kind items loc => cases kind <;> rfl
      | _ => rfl
    rw [hparts]
    exact Expr.parts_admitted h

/-- **All the way down.** -/
theorem Expr.At.admits (h : e.At r r' x) (he : r.Admits e) : r'.Admits x := by
  induction h with
  | refl => exact he
  | part hq _ ih => exact ih (Expr.parts_admits he _ hq)

/-- The expressions of a well formed statement are admitted by their
roles. -/
theorem Stmt.parts_admitted {st : Stmt} (h : st.fits = true) :
    ∀ q ∈ st.parts, q.1.Admits q.2 := by
  cases st with
  | conditional choices loc =>
    simp only [Stmt.fits, Bool.and_eq_true, Choice.allFit_iff] at h
    intro q hq
    obtain ⟨test, htest, rfl⟩ := List.mem_map.1 hq
    obtain ⟨body, hc⟩ := Choice.mem_tests.1 htest
    have hfits := h.2 _ hc
    simp only [Choice.fits, Bool.and_eq_true, Expr.optionFits_iff] at hfits
    exact .inl (hfits.1 test rfl)
  | classDefinition name body arguments decorators loc =>
    cases arguments with
    | none => simp [Stmt.parts]
    | some arguments => simp_all [Stmt.parts, Stmt.fits, Role.Admits]
  | _ => simp_all [Stmt.parts, Stmt.fits, Role.Admits]

theorem Program.Has.fits {p : Program} {st : Stmt} (hp : ∀ st ∈ p.body, st.fits = true)
    (h : p.Has st) : st.fits = true := by
  obtain ⟨outer, houter, d, s, hholds⟩ := h
  exact hholds.fits (hp outer houter)

/-- **Where it stands decides what it is.** In a program of well formed
statements, every role admits what plays it. -/
theorem Program.HasAt.admits {p : Program} (hp : ∀ st ∈ p.body, st.fits = true)
    (h : p.HasAt r x) : r.Admits x := by
  obtain ⟨st, hst, q, hq, hat⟩ := h
  exact hat.admits (Stmt.parts_admitted (hst.fits hp) q hq)

end Scribe
