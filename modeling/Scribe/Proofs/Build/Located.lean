import Scribe.Proofs.Build.Culprit
import Scribe.Proofs.Build.Sound.Statement
import Scribe.Proofs.Emit.Parts
import Scribe.Proofs.Syntax.Occurrence

/-!
# Built programs know their places

Every rule of the builder puts the place of the node it reads on what it
makes of it, with one exception: several indices between brackets become a
tuple that no node of the tree stands for, and that has no place.
`Expr.Located` and `Stmt.Located` say that the places in an expression or
statement have a property `L`, apart from this exception.

`Part.Locates` says what a part makes in every role. One lemma for each
rule goes from the parts of a node to the node, and `Cst.located_of_build`
goes down a tree: every place in a built program is the place of a node.
-/

namespace Scribe

variable {α β : Type} {L : Option Location → Prop}

/-! ## Places in syntax -/

/-- **The places in the expression have the property**, apart from those of
tuples of indices. -/
inductive Expr.Located (L : Option Location → Prop) : Expr → Prop
  /-- An expression with a place of its own. -/
  | node {e : Expr} : L e.loc → (∀ c ∈ e.children, Located L c) → Located L e
  /-- Several indices: the tuple of them has no place. -/
  | indices {value : Expr} {items : List (Option Expr)} {loc : Option Location} : L loc →
      Located L value → (∀ e, some e ∈ items → Located L e) →
      Located L (.subscript value (.sequence .tuple items none) loc)

/-- A located expression has a place with the property. -/
theorem Expr.Located.loc {e : Expr} (h : e.Located L) : L e.loc := by
  cases h with
  | node hloc _ => exact hloc
  | indices hloc _ _ => exact hloc

/-- The statements in the bodies of a statement. -/
def Stmt.bodies : Stmt → List Stmt
  | .function _ _ body _ _ _ => body
  | .classDefinition _ body _ _ _ => body
  | .conditional choices _ => Choice.bodies choices
  | .forLoop _ _ body _ => body
  | .whileLoop _ body _ => body
  | _ => []

/-- **The places in the statement have the property**, apart from those of
tuples of indices. -/
inductive Stmt.Located (L : Option Location → Prop) : Stmt → Prop
  | mk {st : Stmt} : L st.loc → (∀ q ∈ st.parts, q.2.Located L) →
      (∀ inner ∈ st.bodies, Located L inner) → Located L st

/-- The places in the choice have the property. -/
def Choice.Located (L : Option Location → Prop) : Choice → Prop
  | .mk test body => (∀ e ∈ test, e.Located L) ∧ ∀ st ∈ body, st.Located L

/-- The places in the program have the property. -/
structure Program.Located (L : Option Location → Prop) (p : Program) : Prop where
  loc : L p.loc
  body : ∀ st ∈ p.body, st.Located L

/-- An expression statement stands where its expression does. -/
theorem Stmt.Located.expression {e : Expr} (h : e.Located L) : (Stmt.expression e).Located L :=
  .mk h.loc (List.forall_mem_singleton.2 h) nofun

/-- A conditional is located if its choices are, with their tests and bodies.
-/
theorem Stmt.Located.conditional {choices : List Choice} {loc : Option Location} (hloc : L loc)
    (h : ∀ ch ∈ choices, ch.Located L) : (Stmt.conditional choices loc).Located L := by
  refine .mk hloc (fun q hq => ?_) fun st hst => ?_
  · obtain ⟨test, htest, rfl⟩ := List.mem_map.1 hq
    obtain ⟨body, hc⟩ := Choice.mem_tests.1 htest
    exact (h _ hc).1 test rfl
  · obtain ⟨test, body, hc, hst⟩ := Choice.mem_bodies.1 hst
    exact (h _ hc).2 st hst

/-! ## Steps and what they make -/

/-- What the step makes has the property. -/
def Traced.Makes (Q : α → Prop) (x : Traced α) : Prop :=
  ∀ a, x.result = .ok a → Q a

namespace Traced.Makes

variable {Q : α → Prop} {R : β → Prop} {x : Traced α} {f : α → Traced β} {g : α → β}

theorem of_result {a : α} (h : x.result = .ok a) (hQ : Q a) : x.Makes Q :=
  fun _ h' => Except.ok.inj (h.symm.trans h') ▸ hQ

theorem pure {a : α} (h : Q a) : (Pure.pure a : Traced α).Makes Q :=
  of_result rfl h

/-- A step that fails makes nothing. -/
theorem fail (e : Failure) : (Traced.fail e : Traced α).Makes Q :=
  nofun

/-- **Two steps.** -/
theorem bind (hx : x.Makes Q) (hf : ∀ a, Q a → (f a).Makes R) : (x >>= f).Makes R := by
  intro b h
  obtain ⟨a, ha, hb⟩ := Traced.bind_eq_ok.1 h
  exact hf a (hx a ha) b hb

theorem map (hx : x.Makes Q) (hg : ∀ a, Q a → R (g a)) : (g <$> x).Makes R :=
  hx.bind fun a ha => pure (hg a ha)

end Traced.Makes

/-- Steps one after another make what each of them makes. -/
theorem makes_buildEach {build : α → Traced β} {as : List α} {Q : β → Prop}
    (h : ∀ a ∈ as, (build a).Makes Q) : (buildEach build as).Makes fun bs => ∀ b ∈ bs, Q b :=
  fun _ hbs => forall_of_buildEach hbs h

/-- What is made of the parts that are not skipped. -/
theorem makes_kept {build : α → Traced (Option β)} {as : List α} {Q : β → Prop}
    (h : ∀ a ∈ as, (build a).Makes fun o => ∀ b ∈ o, Q b) :
    (buildEach build as >>= fun os => return os.filterMap id).Makes fun bs => ∀ b ∈ bs, Q b := by
  refine (makes_buildEach h).bind fun os hos => .pure fun b hb => ?_
  obtain ⟨o, ho, rfl⟩ := List.mem_filterMap.1 hb
  exact hos _ ho b rfl

/-! ## Parts and nodes -/

/-- **What the part makes is located**, in every role, and so is the part
itself. -/
structure Part.Locates (L : Option Location → Prop) (p : Part) : Prop where
  loc : L p.loc
  statement : ∀ c, (p.statement c).Makes fun o => ∀ st ∈ o, st.Located L
  expression : ∀ c, (p.expression c).Makes (Expr.Located L)
  argument : ∀ c, (p.argument c).Makes (Expr.Located L)
  element : ∀ c, (p.element c).Makes (Expr.Located L)
  target : ∀ c, (p.target c).Makes (Expr.Located L)
  parameter : ∀ c, (p.parameter c).Makes fun o => ∀ e ∈ o, e.Located L
  body : ∀ c, (p.body c).Makes fun ss => ∀ st ∈ ss, st.Located L
  arguments : ∀ c, (p.arguments c).Makes fun es => ∀ e ∈ es, e.Located L
  parameters : ∀ c, (p.parameters c).Makes fun es => ∀ e ∈ es, e.Located L
  choice : ∀ c, (p.choice c).Makes (Choice.Located L)
  assignment : ∀ c, (p.assignment c).Makes (Stmt.Located L)
  definition : ∀ ds c, (p.definition ds c).Makes (Stmt.Located L)
  entry : ∀ c, (p.entry c).Makes (Expr.Located L)
  bounds : ∀ c, (p.bounds c).Makes (Expr.Located L)

/-- The place of the node has the property, and its parts are located. -/
structure Branch.Locates (L : Option Location → Prop) (b : Branch) : Prop where
  loc : L b.loc
  parts : ∀ p ∈ b.parts, p.Locates L

namespace Branch

variable {b : Branch} {c inner : Context} {e : Expr}

/-- The parts that are left without some tokens are located like all. -/
theorem Locates.without {names : List String} {ps : List Part} (hb : b.Locates L)
    (h : b.partsWithout names = ps) : ∀ p ∈ ps, p.Locates L :=
  fun p hp => hb.parts p (mem_of_mem_partsWithout (h ▸ hp))

/-- A name at the place of the node. -/
theorem Locates.reference (hb : b.Locates L) (name : String) (splat : Option Splat) :
    (Expr.reference name splat b.loc).Located L :=
  .node hb.loc nofun

/-! ## Parameters -/

/-- A starred name stands where its node does, stars and all. -/
theorem makes_starredReference (hb : b.Locates L) :
    (b.starredReference c).Makes (Expr.Located L) := by
  intro e h
  obtain ⟨name, splat, -, rfl⟩ := starredReference_eq_ok h
  exact hb.reference name (some splat)

theorem makes_defaultParameter (hb : b.Locates L) :
    (b.defaultParameter c).Makes (Expr.Located L) := by
  intro e h
  obtain ⟨p, d, value, hparts, -, hvalue, rfl⟩ := defaultParameter_eq_ok h
  have hvalue := (hb.without hparts d (by simp)).expression _ value hvalue
  exact .node hb.loc (by simpa [Expr.children] using hvalue)

/-- The name of a typed parameter has no place of its own, starred or not. -/
theorem makes_typedParameter (hb : b.Locates L) : (b.typedParameter c).Makes (Expr.Located L) := by
  intro e h
  obtain ⟨p, t, name, splat, -, -, -, rfl⟩ := typedParameter_eq_ok h
  exact .node hb.loc nofun

theorem makes_typedDefaultParameter (hb : b.Locates L) :
    (b.typedDefaultParameter c).Makes (Expr.Located L) := by
  intro e h
  obtain ⟨p, t, d, value, hparts, -, -, hvalue, rfl⟩ := typedDefaultParameter_eq_ok h
  have hvalue := (hb.without hparts d (by simp)).expression _ value hvalue
  exact .node hb.loc (by simpa [Expr.children] using hvalue)

/-- **Every parameter is located.** A separator makes none. -/
theorem makes_parameter (hb : b.Locates L) :
    (b.parameter c).Makes fun o => ∀ e ∈ o, e.Located L := by
  have hsome : ∀ {x : Traced Expr}, x.Makes (Expr.Located L) →
      (some <$> x).Makes fun o => ∀ e ∈ o, e.Located L :=
    fun hx => hx.map fun e he => by simpa using he
  unfold parameter
  split
  · exact .pure (by simpa [reference] using hb.reference b.text none)
  · exact hsome (makes_defaultParameter hb)
  · exact hsome (makes_typedParameter hb)
  · exact hsome (makes_typedDefaultParameter hb)
  · exact hsome (makes_starredReference hb)
  · exact hsome (makes_starredReference hb)
  · exact .of_result rfl nofun
  · exact .of_result rfl nofun
  · exact .fail _

theorem makes_parameters (hb : b.Locates L) :
    (b.parameters c).Makes fun es => ∀ e ∈ es, e.Located L :=
  makes_kept fun p hp => (hb.parts p (mem_of_mem_partsWithout hp)).parameter _

/-- What is read of a function without a name is located as it is read. -/
theorem makes_lambdaParts {ps : List Part} (hps : ∀ p ∈ ps, p.Locates L) {es : List Expr}
    {body : Option Expr} (hes : ∀ e ∈ es, e.Located L) (hbody : ∀ e ∈ body, e.Located L) :
    (lambdaParts inner es body ps).Makes fun q =>
      (∀ e ∈ q.1, e.Located L) ∧ ∀ e ∈ q.2, e.Located L := by
  rintro ⟨es', body'⟩ h
  obtain ⟨hes', hbody'⟩ := lambdaParts_eq_ok h
  constructor
  · exact hes'.forall_all hes fun p hp => (hps p hp).parameters _
  · exact hbody'.forall_some hbody fun p hp => (hps p hp).expression _

theorem makes_lambda (hb : b.Locates L) : (b.lambda c).Makes (Expr.Located L) := by
  intro e h
  obtain ⟨ps, body, hparts, rfl⟩ := lambda_eq_ok h
  obtain ⟨hps, hbody⟩ := makes_lambdaParts hb.parts (by simp) (by simp) _ hparts
  refine .node hb.loc (List.forall_mem_append.2 ⟨hps, ?_⟩)
  exact List.forall_mem_singleton.2 (hbody body rfl)

/-! ## Sequences and dictionaries -/

/-- A sequence with a place is located if its items are; a hole has no place.
-/
theorem located_sequence {kind : SequenceKind} {is : List (Option Expr)} {loc : Option Location}
    (hloc : L loc) (h : ∀ e, some e ∈ is → e.Located L) :
    (Expr.sequence kind is loc).Located L :=
  .node hloc (by simpa [Expr.children] using h)

/-- A sequence of elements stands where its node does. -/
theorem makes_elements (hb : b.Locates L) (kind : SequenceKind) :
    (b.elements kind c).Makes (Expr.Located L) := by
  intro e h
  obtain ⟨is, his, rfl⟩ := elements_eq_ok h
  exact located_sequence hb.loc
    (forall_of_buildItems his nofun fun p hp => (hb.parts p hp).element _)

theorem makes_targets (hb : b.Locates L) (kind : SequenceKind) :
    (b.targets kind c).Makes (Expr.Located L) := by
  intro e h
  obtain ⟨is, his, rfl⟩ := targets_eq_ok h
  exact located_sequence hb.loc
    (forall_of_buildItems his nofun fun p hp => (hb.parts p hp).target _)

/-- Entries are pairs and spread names, located as these are. -/
theorem makes_dictionary (hb : b.Locates L) : (b.dictionary c).Makes (Expr.Located L) := by
  intro e h
  obtain ⟨es, rfl, hes⟩ := dictionary_eq_ok h
  refine .node hb.loc fun x hx => ?_
  obtain ⟨p, hp, hx | ⟨-, hx⟩⟩ := hes x hx
  · exact (hb.parts p hp).entry _ x hx
  · exact (hb.parts p hp).argument _ x hx

theorem makes_pair (hb : b.Locates L) : (b.pair c).Makes (Expr.Located L) := by
  intro e h
  obtain ⟨k, v, key, value, hparts, hkey, hvalue, rfl⟩ := pair_eq_ok h
  have hkey := (hb.without hparts k (by simp)).expression _ key hkey
  have hvalue := (hb.without hparts v (by simp)).expression _ value hvalue
  exact .node hb.loc (by simp [Expr.children, hkey, hvalue])

/-! ## Access and calls -/

/-- The property is a name with a place of its own, that of its part. -/
theorem makes_memberAccess (hb : b.Locates L) : (b.memberAccess c).Makes (Expr.Located L) := by
  intro e h
  obtain ⟨o, p, object, hparts, -, hobject, rfl⟩ := memberAccess_eq_ok h
  have hobject := (hb.without hparts o (by simp)).expression _ object hobject
  have hproperty : (Expr.reference p.text none p.loc).Located L :=
    .node (hb.without hparts p (by simp)).loc nofun
  exact .node hb.loc (by simp [Expr.children, hobject, hproperty])

/-- A call stands where its node does, its list of arguments nowhere. -/
theorem makes_call (hb : b.Locates L) : (b.call c).Makes (Expr.Located L) := by
  intro e h
  obtain ⟨f, as, callee, arguments, hparts, -, hcallee, harguments, rfl⟩ := call_eq_ok h
  have hcallee := (hb.parts f (by simp [hparts])).expression _ callee hcallee
  have harguments := (hb.parts as (by simp [hparts])).arguments _ arguments harguments
  exact .node hb.loc (List.forall_mem_cons.2 ⟨hcallee, harguments⟩)

theorem makes_arguments (hb : b.Locates L) :
    (b.arguments c).Makes fun es => ∀ e ∈ es, e.Located L :=
  makes_buildEach fun p hp => (hb.parts p (mem_of_mem_partsWithout hp)).argument _

theorem makes_keywordArgument (hb : b.Locates L) :
    (b.keywordArgument c).Makes (Expr.Located L) := by
  intro e h
  obtain ⟨n, v, value, hparts, -, hvalue, rfl⟩ := keywordArgument_eq_ok h
  have hvalue := (hb.without hparts v (by simp)).expression _ value hvalue
  exact .node hb.loc (by simpa [Expr.children] using hvalue)

/-- A spread name stands where its node does, stars and all. -/
theorem makes_splat (hb : b.Locates L) : (b.splat c).Makes (Expr.Located L) := by
  intro e h
  obtain ⟨star, p, s, -, -, -, rfl⟩ := splat_eq_ok h
  exact hb.reference p.text (some s)

/-- An index is located as a slice or as a value. -/
theorem makes_index {p : Part} (hp : p.Locates L) : (index p inner).Makes (Expr.Located L) := by
  unfold index
  split
  · exact hp.bounds _
  · exact hp.expression _

/-- **A subscript.** Only here something is made without a place. -/
theorem makes_subscript (hb : b.Locates L) : (b.subscript c).Makes (Expr.Located L) := by
  intro e h
  obtain ⟨v, rest, value, indices, hparts, hvalue, hindices, -, rfl⟩ := subscript_eq_ok h
  have hvalue := (hb.parts v (by simp [hparts])).expression _ value hvalue
  have hindices : ∀ i ∈ indices, i.Located L := makes_buildEach (fun p hp => makes_index
    (hb.parts p (by simp [hparts, (List.mem_filter.1 hp).1]))) _ hindices
  unfold indexOf
  split
  · exact .node hb.loc (by simp_all [Expr.children])
  · exact .indices hb.loc hvalue (by simpa using hindices)

/-- The bounds that are there are located. -/
def Bounds.Located (L : Option Location → Prop) (bs : Bounds) : Prop :=
  ∀ e, e ∈ bs.start ∨ e ∈ bs.stop ∨ e ∈ bs.step → e.Located L

/-- A bound that is set is located, and the others stay. -/
theorem makes_buildBounds {ps : List Part} (hps : ∀ p ∈ ps, p.Locates L) {place : Nat}
    {bs : Bounds} (hbs : bs.Located L) :
    (buildBounds inner place bs ps).Makes (Bounds.Located L) :=
  fun _ h => (buildBounds_eq_ok h).forall_bounds hbs fun p hp => (hps p hp).expression _

theorem makes_bounds (hb : b.Locates L) : (b.bounds c).Makes (Expr.Located L) := by
  intro e h
  obtain ⟨bs, hbs, rfl⟩ := bounds_eq_ok h
  have hbs := makes_buildBounds hb.parts (by simp [Bounds.Located]) bs hbs
  refine .node hb.loc fun x hx => hbs x ?_
  simpa [Expr.children, or_assoc] using hx

/-! ## Operators -/

theorem located_binary {left right : Expr} {op : BinaryOp} {loc : Option Location} (hloc : L loc)
    (hl : left.Located L) (hr : right.Located L) : (Expr.binary left op right loc).Located L :=
  .node hloc (by simp [Expr.children, hl, hr])

theorem makes_binary (hb : b.Locates L) : (b.binary c).Makes (Expr.Located L) := by
  intro e h
  obtain ⟨l, o, r, left, op, right, hparts, hleft, -, hright, rfl⟩ := binary_eq_ok h
  have hleft := (hb.parts l (by simp [hparts])).expression _ left hleft
  have hright := (hb.parts r (by simp [hparts])).expression _ right hright
  exact located_binary hb.loc hleft hright

/-- The conjunctions of a chain all stand at one place. -/
theorem located_conjunction {loc : Option Location} {first : Expr} {rest : List Expr}
    (hloc : L loc) (hfirst : first.Located L) (hrest : ∀ e ∈ rest, e.Located L) :
    (conjunction loc first rest).Located L := by
  unfold conjunction
  induction rest generalizing first with
  | nil => exact hfirst
  | cons e rest ih =>
    obtain ⟨he, hrest⟩ := List.forall_mem_cons.1 hrest
    exact ih (located_binary hloc hfirst he) hrest

/-- The comparisons of a chain, and their conjunction, stand where the
chain stands. -/
theorem makes_chain (hb : b.Locates L) : (b.chain c).Makes (Expr.Located L) := by
  intro e h
  obtain ⟨first, rest, -, -, hes, rfl⟩ := chain_eq_ok h
  have hall : ∀ e ∈ first :: rest, e.Located L := by
    refine forall_of_buildEach hes fun t ht e he => ?_
    obtain ⟨hl, -, hr⟩ := mem_of_mem_comparisons ht
    obtain ⟨left, op, right, hleft, -, hright, rfl⟩ := comparison_eq_ok he
    exact located_binary hb.loc ((hb.parts _ hl).expression _ left hleft)
      ((hb.parts _ hr).expression _ right hright)
  obtain ⟨hfirst, hrest⟩ := List.forall_mem_cons.1 hall
  exact located_conjunction hb.loc hfirst hrest

theorem makes_negation (hb : b.Locates L) : (b.negation c).Makes (Expr.Located L) := by
  intro e h
  obtain ⟨p, v, hparts, hv, rfl⟩ := negation_eq_ok h
  have hv := (hb.without hparts p (by simp)).expression _ v hv
  exact .node hb.loc (by simpa [Expr.children] using hv)

theorem makes_unary (hb : b.Locates L) : (b.unary c).Makes (Expr.Located L) := by
  intro e h
  obtain ⟨o, p, op, v, hparts, -, hv, rfl⟩ := unary_eq_ok h
  have hv := (hb.parts p (by simp [hparts])).expression _ v hv
  exact .node hb.loc (by simpa [Expr.children] using hv)

theorem makes_conditional (hb : b.Locates L) : (b.conditional c).Makes (Expr.Located L) := by
  intro e h
  obtain ⟨x, t, y, vx, vt, vy, hparts, hx, ht, hy, rfl⟩ := conditional_eq_ok h
  have hx := (hb.without hparts x (by simp)).expression _ vx hx
  have ht := (hb.without hparts t (by simp)).expression _ vt ht
  have hy := (hb.without hparts y (by simp)).expression _ vy hy
  exact .node hb.loc (by simp [Expr.children, hx, ht, hy])

theorem makes_parenthesized (hb : b.Locates L) : (b.parenthesized c).Makes (Expr.Located L) := by
  intro e h
  obtain ⟨p, v, hparts, hv, rfl⟩ := parenthesized_eq_ok h
  have hv := (hb.without hparts p (by simp)).expression _ v hv
  exact .node hb.loc (by simpa [Expr.children] using hv)

theorem makes_string (hb : b.Locates L) : b.string.Makes (Expr.Located L) := by
  intro e h
  obtain rfl := string_eq_ok h
  exact .node hb.loc nofun

/-! ## Values, arguments, elements and targets -/

/-- **Every value is located**, by the rule for its kind. -/
theorem makes_expression (hb : b.Locates L) : (b.expression c).Makes (Expr.Located L) := by
  unfold expression
  split
  · exact .pure (hb.reference b.text none)
  · exact makes_memberAccess hb
  · exact makes_call hb
  · exact makes_subscript hb
  · exact makes_binary hb
  · exact makes_binary hb
  · exact makes_chain hb
  · exact makes_negation hb
  · exact makes_unary hb
  · exact makes_conditional hb
  · exact makes_parenthesized hb
  · exact makes_lambda hb
  · exact makes_string hb
  · exact .pure (.node hb.loc nofun)
  · exact .pure (.node hb.loc nofun)
  · exact .pure (.node hb.loc nofun)
  · exact .pure (.node hb.loc nofun)
  · exact .pure (.node hb.loc nofun)
  · exact makes_elements hb _
  · exact makes_elements hb _
  · exact makes_elements hb _
  · exact makes_dictionary hb
  · exact .fail _

/-- **Every argument is located.** -/
theorem makes_argument (hb : b.Locates L) : (b.argument c).Makes (Expr.Located L) := by
  unfold argument
  split
  · exact makes_keywordArgument hb
  · exact makes_splat hb
  · exact makes_splat hb
  · exact makes_expression hb

theorem makes_element (hb : b.Locates L) : (b.element c).Makes (Expr.Located L) := by
  unfold element
  split
  · exact makes_splat hb
  · exact makes_expression hb

/-- **Every target is located.** -/
theorem makes_target (hb : b.Locates L) : (b.target c).Makes (Expr.Located L) := by
  unfold target
  split
  · exact .pure (hb.reference b.text none)
  · exact makes_memberAccess hb
  · exact makes_subscript hb
  · exact makes_targets hb _
  · exact makes_targets hb _
  · exact makes_targets hb _
  · exact makes_starredReference hb
  · exact .fail _

/-! ## Assignments and expressions as statements -/

/-- The value of an assignment is located; its operator and type have no
place. -/
theorem makes_assignmentTail {ps : List Part} (hps : ∀ p ∈ ps, p.Locates L) {t : AssignmentTail}
    (ht : ∀ e ∈ t.value, e.Located L) :
    (assignmentTail inner t ps).Makes fun t => ∀ e ∈ t.value, e.Located L := by
  intro t' h
  exact (assignmentTail_eq_ok h).value.forall_some ht fun p hp => (hps p hp).expression _

/-- An assignment stands where its own node does, not where the statement
around it does. -/
theorem makes_assignment (hb : b.Locates L) : (b.assignment c).Makes (Stmt.Located L) := by
  unfold assignment
  split
  · exact .fail _
  · rename_i p ps hparts
    have hps : ∀ q ∈ ps, q.Locates L := fun q hq => hb.parts q (by simp [hparts, hq])
    exact ((hb.parts p (by simp [hparts])).target _).bind fun left hleft =>
      (makes_assignmentTail hps (by simp)).bind fun t ht =>
        .pure (.mk hb.loc (by simpa [Stmt.parts, hleft] using ht) nofun)

/-- Documentation stands where its literal does, and a tuple without brackets
where the statement does. -/
theorem makes_expressionStatement (hb : b.Locates L) :
    (b.expressionStatement c).Makes (Stmt.Located L) := by
  unfold expressionStatement
  split
  · rename_i p hparts
    have hp := hb.parts p (by simp [hparts])
    split
    · exact hp.assignment _
    · exact hp.assignment _
    · split
      · exact .pure (.mk hp.loc nofun nofun)
      · exact (hp.expression _).map fun e he => .expression he
  · refine .bind (Q := fun is => ∀ e, some e ∈ is → e.Located L) ?_ fun is his =>
      .pure (.expression (located_sequence hb.loc his))
    exact fun is his => forall_of_buildItems his nofun fun p hp => (hb.parts p hp).element _

/-! ## Control flow -/

/-- The statements of a body are located one by one. -/
theorem makes_body (hb : b.Locates L) : (b.body c).Makes fun ss => ∀ st ∈ ss, st.Located L :=
  makes_kept fun p hp => (hb.parts p hp).statement _

/-- What is read of a clause is located as it is read. -/
theorem makes_choiceParts {ps : List Part} (hps : ∀ p ∈ ps, p.Locates L) {test : Option Expr}
    {body : List Stmt} (htest : ∀ e ∈ test, e.Located L) (hbody : ∀ st ∈ body, st.Located L) :
    (choiceParts c test body ps).Makes (Choice.Located L) := by
  rintro ⟨test', body'⟩ h
  obtain ⟨htest', hbody'⟩ := choiceParts_eq_ok h
  constructor
  · exact htest'.forall_some htest fun p hp => (hps p hp).expression _
  · exact hbody'.forall_all hbody fun p hp => (hps p hp).body _

theorem makes_choice (hb : b.Locates L) : (b.choice c).Makes (Choice.Located L) :=
  makes_choiceParts hb.parts nofun nofun

/-- A conditional stands where its node does, its clauses nowhere. -/
theorem makes_conditionalStatement (hb : b.Locates L) :
    (b.conditionalStatement c).Makes (Stmt.Located L) :=
  (makes_choice hb).bind fun _ hfirst =>
    (makes_buildEach fun p hp => (hb.parts p (List.mem_filter.1 hp).1).choice _).bind
      fun _ hrest => .pure (.conditional hb.loc (List.forall_mem_cons.2 ⟨hfirst, hrest⟩))

/-- What was read of a loop over a container is located. -/
structure ForParts.Located (L : Option Location → Prop) (f : ForParts) : Prop where
  left : ∀ e ∈ f.left, e.Located L
  right : ∀ e ∈ f.right, e.Located L
  body : ∀ st ∈ f.body, st.Located L

/-- What is read of a loop is located as it is read. -/
theorem makes_forParts {ps : List Part} (hps : ∀ p ∈ ps, p.Locates L) {f : ForParts}
    (hf : f.Located L) : (forParts inner f ps).Makes (ForParts.Located L) := by
  intro f' h
  have hread := forParts_eq_ok h
  refine ⟨?_, ?_, ?_⟩
  · exact hread.left.forall_some hf.left fun p hp => (hps p hp).target _
  · exact hread.right.forall_some hf.right fun p hp => (hps p hp).expression _
  · exact hread.body.forall_all hf.body fun p hp => (hps p hp).body _

theorem makes_forStatement (hb : b.Locates L) : (b.forStatement c).Makes (Stmt.Located L) := by
  refine (makes_forParts hb.parts ⟨by simp, by simp, by simp⟩).bind fun f hf => ?_
  split
  · rename_i left right hleft hright
    exact .pure (.mk hb.loc (by simp [Stmt.parts, hf.left left hleft, hf.right right hright])
      hf.body)
  · exact .fail _

theorem makes_whileParts {ps : List Part} (hps : ∀ p ∈ ps, p.Locates L) {test : Option Expr}
    {body : List Stmt} (htest : ∀ e ∈ test, e.Located L) (hbody : ∀ st ∈ body, st.Located L) :
    (whileParts inner test body ps).Makes fun q =>
      (∀ e ∈ q.1, e.Located L) ∧ ∀ st ∈ q.2, st.Located L := by
  rintro ⟨test', body'⟩ h
  obtain ⟨htest', hbody'⟩ := whileParts_eq_ok h
  constructor
  · exact htest'.forall_some htest fun p hp => (hps p hp).expression _
  · exact hbody'.forall_all hbody fun p hp => (hps p hp).body _

theorem makes_whileStatement (hb : b.Locates L) : (b.whileStatement c).Makes (Stmt.Located L) := by
  refine (makes_whileParts hb.parts (by simp) (by simp)).bind fun q hq => ?_
  obtain ⟨_ | test, body⟩ := q
  · exact .fail _
  · exact .pure (.mk hb.loc (List.forall_mem_singleton.2 (hq.1 test rfl)) hq.2)

theorem makes_returnStatement (hb : b.Locates L) :
    (b.returnStatement c).Makes (Stmt.Located L) := by
  unfold returnStatement
  split
  · exact .pure (.mk hb.loc nofun nofun)
  · rename_i p hparts
    exact ((hb.without hparts p (by simp)).expression _).bind fun e he =>
      .pure (.mk hb.loc (List.forall_mem_singleton.2 he) nofun)
  · exact .fail _

theorem makes_raiseStatement (hb : b.Locates L) : (b.raiseStatement c).Makes (Stmt.Located L) := by
  unfold raiseStatement
  split
  · exact .fail _
  · rename_i p hparts
    exact ((hb.without hparts p (by simp)).expression _).bind fun e he =>
      .pure (.mk hb.loc (List.forall_mem_singleton.2 he) nofun)
  · exact .fail _

/-! ## Definitions -/

/-- What was read of a function is located. -/
structure FunctionParts.Located (L : Option Location → Prop) (f : FunctionParts) : Prop where
  parameters : ∀ e ∈ f.parameters, e.Located L
  body : ∀ st ∈ f.body, st.Located L

/-- What is read of a function is located as it is read. -/
theorem makes_functionParts {ps : List Part} (hps : ∀ p ∈ ps, p.Locates L) {f : FunctionParts}
    (hf : f.Located L) : (functionParts inner f ps).Makes (FunctionParts.Located L) := by
  intro f' h
  have hread := functionParts_eq_ok h
  constructor
  · exact hread.parameters.forall_all hf.parameters fun p hp => (hps p hp).parameters _
  · exact hread.body.forall_all hf.body fun p hp => (hps p hp).body _

theorem makes_function (hb : b.Locates L) (ds : List String) :
    (b.function ds c).Makes (Stmt.Located L) :=
  (makes_functionParts hb.parts ⟨by simp, by simp⟩).bind fun _ hf =>
    .pure (.mk hb.loc (List.forall_mem_map.2 hf.parameters) hf.body)

/-- What was read of a class is located. -/
structure ClassParts.Located (L : Option Location → Prop) (f : ClassParts) : Prop where
  arguments : ∀ e ∈ f.arguments.getD [], e.Located L
  body : ∀ st ∈ f.body, st.Located L

theorem makes_classParts {ps : List Part} (hps : ∀ p ∈ ps, p.Locates L) {f : ClassParts}
    (hf : f.Located L) : (classParts inner f ps).Makes (ClassParts.Located L) := by
  intro f' h
  have hread := classParts_eq_ok h
  constructor
  · exact forall_getD.1 (hread.arguments.forall_some (forall_getD.2 hf.arguments)
      fun p hp => (hps p hp).arguments _)
  · exact hread.body.forall_all hf.body fun p hp => (hps p hp).body _

theorem makes_classDefinition (hb : b.Locates L) (ds : List String) :
    (b.classDefinition ds c).Makes (Stmt.Located L) :=
  (makes_classParts hb.parts ⟨by simp, by simp⟩).bind fun _ hf =>
    .pure (.mk hb.loc (List.forall_mem_map.2 hf.arguments) hf.body)

theorem makes_definition (hb : b.Locates L) (ds : List String) :
    (b.definition ds c).Makes (Stmt.Located L) := by
  unfold definition
  split
  · exact makes_classDefinition hb ds
  · exact makes_function hb ds

/-- A decorated definition stands where the definition does, behind the
decorators. -/
theorem makes_decoratedParts {ps : List Part} (hps : ∀ p ∈ ps, p.Locates L) (ds : List String) :
    (decoratedParts b c ds ps).Makes (Stmt.Located L) := by
  induction ps generalizing ds with
  | nil => exact .fail _
  | cons p ps ih =>
    obtain ⟨hp, hps'⟩ := List.forall_mem_cons.1 hps
    unfold decoratedParts
    split
    · exact ih hps' _
    · exact hp.definition _ _
    · exact hp.definition _ _
    · exact .fail _

/-! ## Statements and all roles -/

/-- **Every statement is located.** An import makes none. -/
theorem makes_statement (hb : b.Locates L) :
    (b.statement c).Makes fun o => ∀ st ∈ o, st.Located L := by
  have hsome : ∀ {x : Traced Stmt}, x.Makes (Stmt.Located L) →
      (some <$> x).Makes fun o => ∀ st ∈ o, st.Located L :=
    fun hx => hx.map fun st hst => by simpa using hst
  have hsimple : ∀ kind, ∀ st ∈ some (Stmt.simple kind b.loc), st.Located L := by
    rintro kind st ⟨⟩
    exact .mk hb.loc nofun nofun
  unfold statement
  split
  · exact hsome (makes_expressionStatement hb)
  · exact hsome (makes_function hb _)
  · exact hsome (makes_classDefinition hb _)
  · exact hsome (makes_decoratedParts hb.parts _)
  · exact hsome (makes_conditionalStatement hb)
  · exact hsome (makes_forStatement hb)
  · exact hsome (makes_whileStatement hb)
  · exact hsome (makes_returnStatement hb)
  · exact hsome (makes_raiseStatement hb)
  · exact .pure (hsimple _)
  · exact .pure (hsimple _)
  · exact .pure (hsimple _)
  · exact .of_result rfl nofun
  · exact .of_result rfl nofun
  · exact .of_result rfl nofun
  · exact .fail _

/-- **The step of the fold.** A node is located, as a part, if its place
and its parts are. -/
theorem part_locates (hb : b.Locates L) : b.part.Locates L where
  loc := hb.loc
  statement _ := makes_statement hb
  expression _ := makes_expression hb
  argument _ := makes_argument hb
  element _ := makes_element hb
  target _ := makes_target hb
  parameter _ := makes_parameter hb
  body _ := makes_body hb
  arguments _ := makes_arguments hb
  parameters _ := makes_parameters hb
  choice _ := makes_choice hb
  assignment _ := makes_assignment hb
  definition ds _ := makes_definition hb ds
  entry _ := makes_pair hb
  bounds _ := makes_bounds hb

end Branch

/-! ## Trees -/

namespace Cst

variable {file : String} {c : Cst} {p : Program}

/-- **Down a tree.** What is made of a tree is located if its nodes are. -/
theorem part_locates {parent : Option Kind} (hc : ∀ q ∈ c.nodes parent, L (q.2.location file)) :
    (c.part file).Locates L := by
  induction c using Cst.induction generalizing parent with
  | leaf kind text span =>
    exact Branch.part_locates ⟨hc _ (self_mem_nodes parent _), List.forall_mem_nil _⟩
  | tree kind children span ih =>
    refine Branch.part_locates ⟨hc _ (self_mem_nodes parent _), fun p hp => ?_⟩
    obtain ⟨x, hx, rfl⟩ := mem_partsOf (List.mem_filter.1 hp).1
    exact ih x hx fun q hq => hc q (nodes_child_subset hx hq)

/-- **The places in a built program** are those of nodes of the tree, apart
from the tuples of indices. -/
theorem located_of_build (h : (c.build file).result = .ok p) :
    p.Located fun loc => ∃ q ∈ c.nodes none, q.2.location file = loc := by
  have hpart : (c.part file).Locates fun loc => ∃ q ∈ c.nodes none, q.2.location file = loc :=
    part_locates fun q hq => ⟨q, hq, rfl⟩
  simp only [build] at h
  split at h
  · simp at h
  · simp only [Traced.bind_eq_ok, Traced.pure_eq_ok] at h
    obtain ⟨body, hbody, rfl⟩ := h
    exact ⟨hpart.loc, hpart.body _ body hbody⟩

end Cst

end Scribe
