import Scribe.Proofs.Build.Loops
import Scribe.Proofs.Syntax.Induction

/-!
# A refusal names a node of the tree

The rules of the builder hand the kind of the surrounding node on by hand,
in contexts, and refuse at many places: some with the context they were
given, some with the one they hand on. This file proves that all of them
refuse a node together with its own place and the kind of its own parent.

The failures of a rule are followed by a property `F` that they have.
`Branch.Blames` says that `F` holds of what a node may be refused with,
and `Part.Blames` that a part fails with nothing else, in every role and in
every context its parent can build it in. One lemma for each rule goes from
the one to the other, and `Cst.part_blames` goes down a tree.

One refusal does not name a node: that of a formatted string names what
would stand inside it.
-/

namespace Scribe

variable {α β : Type} {F : Failure → Prop}

/-! ## Nodes and their parents -/

/-- The name of the kind around a node; the root stands in a file. -/
def parentName (parent : Option Kind) : String :=
  (parent.map Kind.name).getD "file"

/-- A context tells its parent by the name of the kind. -/
theorem Context.parentName_eq (c : Context) : c.parentName = Scribe.parentName c.parent := by
  obtain ⟨region, _ | kind⟩ := c <;> rfl

namespace Cst

mutual

/-- The nodes of a tree from the root down, each with the kind of its
parent. -/
def nodes (parent : Option Kind) : Cst → List (Option Kind × Cst)
  | leaf kind text span => [(parent, leaf kind text span)]
  | tree kind children span =>
    (parent, tree kind children span) :: nodesOf (some kind) children

/-- The nodes of trees with the same parent. -/
def nodesOf (parent : Option Kind) : List Cst → List (Option Kind × Cst)
  | [] => []
  | c :: cs => c.nodes parent ++ nodesOf parent cs

end

/-- A tree is the first of its nodes. -/
theorem self_mem_nodes (parent : Option Kind) (c : Cst) : (parent, c) ∈ c.nodes parent := by
  cases c <;> simp [nodes]

/-- The nodes of one of several trees are nodes of these. -/
theorem nodes_subset_nodesOf {parent : Option Kind} {c : Cst} {cs : List Cst} (h : c ∈ cs) :
    c.nodes parent ⊆ nodesOf parent cs := by
  induction cs with
  | nil => cases h
  | cons x xs ih =>
    rw [nodesOf]
    rcases List.mem_cons.1 h with rfl | h
    · exact List.subset_append_left ..
    · exact List.subset_append_of_subset_right _ (ih h)

/-- The nodes of a child are nodes of the tree. -/
theorem nodes_child_subset {parent : Option Kind} {kind : Kind} {children : List Cst}
    {span : Option Span} {x : Cst} (h : x ∈ children) :
    x.nodes (some kind) ⊆ (tree kind children span).nodes parent :=
  List.subset_cons_of_subset _ (nodes_subset_nodesOf h)

end Cst

/-! ## Steps and their failures -/

/-- The step fails with nothing but what has the property. -/
def Traced.Fails (F : Failure → Prop) (x : Traced α) : Prop :=
  ∀ e, x.result = .error e → F e

namespace Traced.Fails

variable {x : Traced α} {f : α → Traced β} {g : α → β}

theorem of_result {a : α} (h : x.result = .ok a) : x.Fails F :=
  fun _ h' => nomatch h.symm.trans h'

theorem pure (a : α) : (Pure.pure a : Traced α).Fails F :=
  of_result rfl

theorem fail {e : Failure} (h : F e) : (Traced.fail e : Traced α).Fails F :=
  fun _ h' => Except.error.inj h' ▸ h

theorem bind (hx : x.Fails F) (hf : ∀ a, (f a).Fails F) : (x >>= f).Fails F := by
  intro e h
  rw [Traced.result_bind] at h
  cases ha : x.result with
  | error e' =>
    rw [ha] at h
    exact Except.error.inj h ▸ hx e' ha
  | ok a =>
    rw [ha] at h
    exact hf a e h

theorem map (hx : x.Fails F) : (g <$> x).Fails F :=
  hx.bind fun a => pure (g a)

end Traced.Fails

/-- Steps one after another fail with nothing but what one of them fails with.
-/
theorem fails_buildEach {build : α → Traced β} {as : List α}
    (h : ∀ a ∈ as, (build a).Fails F) : (buildEach build as).Fails F := by
  induction as with
  | nil => exact .pure _
  | cons a as ih =>
    obtain ⟨ha, has⟩ := List.forall_mem_cons.1 h
    exact ha.bind fun _ => (ih has).bind fun _ => .pure _

/-- The items of a sequence fail with nothing but what an item fails with:
separators and brackets are passed over. -/
theorem fails_buildItems {build : Part → Traced Expr} {is : List (Option Expr)} {ps : List Part}
    (h : ∀ p ∈ ps, (build p).Fails F) : (buildItems build is ps).Fails F := by
  induction ps generalizing is with
  | nil => exact .pure _
  | cons p ps ih =>
    obtain ⟨hp, hps⟩ := List.forall_mem_cons.1 h
    unfold buildItems
    split
    · exact ih hps
    · split
      · exact ih hps
      · exact hp.bind fun _ => ih hps

/-! ## Parts and nodes -/

/-- **The part fails with nothing but what has the property**, under a
parent of this kind. A role that only the parts of the part can fail in
asks nothing of the context, and a clause is built in the context of its
own parts. -/
structure Part.Blames (F : Failure → Prop) (parent : Option Kind) (p : Part) : Prop where
  own : F (.unsupported p.kind.name (parentName parent) p.loc)
  statement : ∀ c, c.parent = parent → (p.statement c).Fails F
  expression : ∀ c, c.parent = parent → (p.expression c).Fails F
  argument : ∀ c, c.parent = parent → (p.argument c).Fails F
  element : ∀ c, c.parent = parent → (p.element c).Fails F
  target : ∀ c, c.parent = parent → (p.target c).Fails F
  parameter : ∀ c, c.parent = parent → (p.parameter c).Fails F
  body : ∀ c, (p.body c).Fails F
  arguments : ∀ c, (p.arguments c).Fails F
  parameters : ∀ c, (p.parameters c).Fails F
  choice : ∀ c, c.parent = some p.kind → (p.choice c).Fails F
  assignment : ∀ c, c.parent = parent → (p.assignment c).Fails F
  definition : ∀ ds c, (p.definition ds c).Fails F
  entry : ∀ c, c.parent = parent → (p.entry c).Fails F
  bounds : ∀ c, c.parent = parent → (p.bounds c).Fails F
  starred : ∀ c, c.parent = parent → (p.starred c).Fails F

/-- The property holds of whatever a node under a parent of this kind may
be refused with, and its parts fail with nothing else. -/
structure Branch.Blames (F : Failure → Prop) (parent : Option Kind) (b : Branch) : Prop where
  own : F (.unsupported b.kind.name (parentName parent) b.loc)
  formatted : b.kind = .string → Literal.isFormatted b.text = true →
    F (.unsupported "interpolation" "string" b.loc)
  defect : ∀ d, F (.defect d)
  parts : ∀ p ∈ b.parts, p.Blames F (some b.kind)

theorem Part.Blames.refuse {parent : Option Kind} {p : Part} (hp : p.Blames F parent)
    {c : Context} (hc : c.parent = parent) : (p.refuse c : Traced α).Fails F :=
  .fail (by rw [Context.parentName_eq, hc]; exact hp.own)

/-- What is no identifier is refused itself when it is read as a name. -/
theorem Part.Blames.name {parent : Option Kind} {p : Part} (hp : p.Blames F parent) {c : Context}
    (hc : c.parent = parent) : (p.name c).Fails F := by
  unfold Part.name
  split
  · exact .pure _
  · exact hp.refuse hc

/-- The ways a part fails in are those of its roles. -/
theorem Part.Blames.failsWith {c : Context} {p : Part} (hp : p.Blames F c.parent) {e : Failure}
    (h : p.FailsWith c e) : F e := by
  cases h with
  | refused =>
    rw [Context.parentName_eq]
    exact hp.own
  | expression h => exact hp.expression c rfl e h
  | target h => exact hp.target c rfl e h
  | parameters h => exact hp.parameters c e h
  | arguments h => exact hp.arguments c e h
  | body h => exact hp.body c e h

/-- What fails in a loop over parts is one of the parts. -/
theorem Part.Blames.failsAt {c : Context} {ps : List Part} (hps : ∀ p ∈ ps, p.Blames F c.parent)
    {e : Failure} (h : FailsAt c ps e) : F e := by
  obtain ⟨p, hp, hfails⟩ := h
  exact (hps p hp).failsWith hfails

namespace Branch

variable {b : Branch} {c inner : Context}

theorem Blames.refuse (hb : b.Blames F c.parent) : (b.refuse c : Traced α).Fails F :=
  .fail (by rw [Context.parentName_eq]; exact hb.own)

/-- The parts that are left without some tokens are parts of the node. -/
theorem Blames.without {parent : Option Kind} {names : List String} {ps : List Part}
    (hb : b.Blames F parent) (h : b.partsWithout names = ps) :
    ∀ p ∈ ps, p.Blames F (some b.kind) :=
  fun p hp => hb.parts p (mem_of_mem_partsWithout (h ▸ hp))

/-! ## Parameters -/

/-- The node is refused unless one part stands behind the stars, which is
refused unless it is a name. -/
theorem fails_starred (hb : b.Blames F c.parent) : (b.starred c).Fails F := by
  unfold starred
  split
  · rename_i p _ hparts
    exact ((hb.without hparts p (by simp)).name rfl).bind fun _ => .pure _
  · exact hb.refuse

theorem fails_starredReference (hb : b.Blames F c.parent) : (b.starredReference c).Fails F :=
  (fails_starred hb).bind fun _ => .pure _

/-- The node is refused for the number of its parts only. -/
theorem fails_defaultParameter (hb : b.Blames F c.parent) : (b.defaultParameter c).Fails F := by
  unfold defaultParameter
  split
  · rename_i p d hparts
    have hps := hb.without hparts
    exact ((hps d (by simp)).expression _ rfl).bind fun _ =>
      ((hps p (by simp)).name rfl).bind fun _ => .pure _
  · exact hb.refuse

/-- A type that is none is refused as the parameter around it. -/
theorem fails_typedParameter (hb : b.Blames F c.parent) : (b.typedParameter c).Fails F := by
  unfold typedParameter
  split
  · rename_i p t hparts
    have hp := hb.without hparts p (by simp)
    split
    · exact hb.refuse
    · split
      · exact (hp.starred _ rfl).bind fun _ => .pure _
      · exact (hp.name rfl).bind fun _ => .pure _
  · exact hb.refuse

theorem fails_typedDefaultParameter (hb : b.Blames F c.parent) :
    (b.typedDefaultParameter c).Fails F := by
  unfold typedDefaultParameter
  split
  · rename_i p t d hparts
    have hps := hb.without hparts
    split
    · exact hb.refuse
    · exact ((hps d (by simp)).expression _ rfl).bind fun _ =>
        ((hps p (by simp)).name rfl).bind fun _ => .pure _
  · exact hb.refuse

/-- What is no parameter is refused itself. -/
theorem fails_parameter (hb : b.Blames F c.parent) : (b.parameter c).Fails F := by
  unfold parameter
  split
  · exact .pure _
  · exact (fails_defaultParameter hb).map
  · exact (fails_typedParameter hb).map
  · exact (fails_typedDefaultParameter hb).map
  · exact (fails_starredReference hb).map
  · exact (fails_starredReference hb).map
  · exact .of_result rfl
  · exact .of_result rfl
  · exact hb.refuse

/-- A list of parameters is never refused itself. -/
theorem fails_parameters (hb : ∀ p ∈ b.parts, p.Blames F (some b.kind)) :
    (b.parameters c).Fails F :=
  (fails_buildEach fun p hp => (hb p (mem_of_mem_partsWithout hp)).parameter _ rfl).bind
    fun _ => .pure _

/-- A second body is refused as a part of the function. -/
theorem fails_lambdaParts {ps : List Part} (hps : ∀ p ∈ ps, p.Blames F inner.parent)
    {es : List Expr} {body : Option Expr} : (lambdaParts inner es body ps).Fails F :=
  fun _ h => Part.Blames.failsAt hps (lambdaParts_eq_error h)

/-- A function without a body is refused itself. -/
theorem fails_lambda (hb : b.Blames F c.parent) : (b.lambda c).Fails F := by
  refine (fails_lambdaParts hb.parts).bind fun q => ?_
  obtain ⟨ps, _ | body⟩ := q
  · exact hb.refuse
  · exact .pure _

/-! ## Sequences and dictionaries -/

/-- Items are built in the context of their node. -/
theorem fails_items (hb : ∀ p ∈ b.parts, p.Blames F (some b.kind))
    {build : Part → Context → Traced Expr}
    (h : ∀ p, p.Blames F (some b.kind) → (build p (c.within b.kind)).Fails F) :
    (b.items c build).Fails F :=
  fails_buildItems fun p hp => h p (hb p hp)

theorem fails_elements (hb : b.Blames F c.parent) (kind : SequenceKind) :
    (b.elements kind c).Fails F :=
  (fails_items hb.parts fun _ hp => hp.element _ rfl).bind fun _ => .pure _

theorem fails_targets (hb : b.Blames F c.parent) (kind : SequenceKind) :
    (b.targets kind c).Fails F :=
  (fails_items hb.parts fun _ hp => hp.target _ rfl).bind fun _ => .pure _

/-- What is no entry is refused as a part of the dictionary. -/
theorem fails_dictionary (hb : b.Blames F c.parent) : (b.dictionary c).Fails F := by
  refine (fails_buildEach fun p hp => ?_).bind fun _ => .pure _
  have hp := hb.parts p (mem_of_mem_partsWithout hp)
  split
  · exact hp.entry _ rfl
  · exact hp.argument _ rfl
  · exact hp.refuse rfl

theorem fails_pair (hb : b.Blames F c.parent) : (b.pair c).Fails F := by
  unfold pair
  split
  · rename_i k v hparts
    have hps := hb.without hparts
    exact ((hps k (by simp)).expression _ rfl).bind fun _ =>
      ((hps v (by simp)).expression _ rfl).bind fun _ => .pure _
  · exact hb.refuse

/-! ## Access and calls -/

/-- A property that is no name is refused as the access around it. -/
theorem fails_memberAccess (hb : b.Blames F c.parent) : (b.memberAccess c).Fails F := by
  unfold memberAccess
  split
  · rename_i o p hparts
    split
    · exact hb.refuse
    · exact ((hb.without hparts o (by simp)).expression _ rfl).bind fun _ => .pure _
  · exact hb.refuse

/-- What is no list of arguments is refused as a part of the call. Without any
part the tree breaks a promise, which is another failure. -/
theorem fails_call (hb : b.Blames F c.parent) : (b.call c).Fails F := by
  unfold call
  split
  · rename_i f as hparts
    have hf := hb.parts f (by simp [hparts])
    have has := hb.parts as (by simp [hparts])
    split
    · exact has.refuse rfl
    · exact (hf.expression _ rfl).bind fun _ => (has.arguments _).bind fun _ => .pure _
  · rename_i last hlast _
    exact (hb.parts last (List.mem_of_getLast? hlast)).refuse rfl
  · exact .fail (hb.defect _)

theorem fails_arguments (hb : ∀ p ∈ b.parts, p.Blames F (some b.kind)) :
    (b.arguments c).Fails F :=
  fails_buildEach fun p hp => (hb p (mem_of_mem_partsWithout hp)).argument _ rfl

theorem fails_keywordArgument (hb : b.Blames F c.parent) : (b.keywordArgument c).Fails F := by
  unfold keywordArgument
  split
  · rename_i n v hparts
    split
    · exact hb.refuse
    · exact ((hb.without hparts v (by simp)).expression _ rfl).bind fun _ => .pure _
  · exact hb.refuse

/-- What is no name is refused as a part, what has no star in front as the
node. -/
theorem fails_splat (hb : b.Blames F c.parent) : (b.splat c).Fails F := by
  unfold splat
  split
  · rename_i star p hparts
    split
    · split
      · exact (hb.parts p (by simp [hparts])).refuse rfl
      · exact .pure _
    · exact hb.refuse
  · exact hb.refuse

theorem fails_index {p : Part} (hp : p.Blames F inner.parent) : (index p inner).Fails F := by
  unfold index
  split
  · exact hp.bounds _ rfl
  · exact hp.expression _ rfl

/-- A subscript without an index is refused itself. -/
theorem fails_subscript (hb : b.Blames F c.parent) : (b.subscript c).Fails F := by
  unfold subscript
  split
  · exact .fail (hb.defect _)
  · rename_i v rest hparts
    have hindices : (buildEach (index · (c.within b.kind))
        (rest.filter (!·.isTokenOf ["[", "]", ","]))).Fails F :=
      fails_buildEach fun p hp =>
        fails_index (hb.parts p (by simp [hparts, (List.mem_filter.1 hp).1]))
    refine ((hb.parts v (by simp [hparts])).expression _ rfl).bind fun _ =>
      hindices.bind fun indices => ?_
    split
    · exact hb.refuse
    · exact .pure _
    · exact .pure _

/-- A bound too many breaks a promise of the parser; nothing is refused for
it. -/
theorem fails_buildBounds {ps : List Part} (hps : ∀ p ∈ ps, p.Blames F inner.parent)
    (hdefect : ∀ d, F (.defect d)) {place : Nat} {bs : Bounds} :
    (buildBounds inner place bs ps).Fails F := by
  induction ps generalizing place bs with
  | nil => exact .pure _
  | cons p ps ih =>
    obtain ⟨hp, hps'⟩ := List.forall_mem_cons.1 hps
    unfold buildBounds
    split
    · exact ih hps'
    · refine (hp.expression _ rfl).bind fun e => ?_
      split
      · exact ih hps'
      · exact .fail (hdefect _)

theorem fails_bounds (hb : b.Blames F c.parent) : (b.bounds c).Fails F :=
  (fails_buildBounds hb.parts hb.defect).bind fun _ => .pure _

/-! ## Operators -/

/-- An operator that is none is refused in the context its operands are built
in. -/
theorem fails_operator {p : Part} (hp : p.Blames F inner.parent) : (operator p inner).Fails F := by
  unfold operator
  split
  · exact .pure _
  · exact hp.refuse rfl

/-- The context is entered under another name, with the same kind as its
parent. -/
theorem fails_binary (hb : b.Blames F c.parent) : (b.binary c).Fails F := by
  unfold binary
  split
  · rename_i l o r hparts
    have hl := hb.parts l (by simp [hparts])
    have ho := hb.parts o (by simp [hparts])
    have hr := hb.parts r (by simp [hparts])
    exact (hl.expression _ rfl).bind fun _ => (fails_operator ho).bind fun _ =>
      (hr.expression _ rfl).bind fun _ => .pure _
  · exact hb.refuse

/-- A chain is refused for the number of its parts, and its comparisons for
theirs. -/
theorem fails_chain (hb : b.Blames F c.parent) : (b.chain c).Fails F := by
  unfold chain
  split
  · exact hb.refuse
  · refine (fails_buildEach fun t ht => ?_).bind fun es => ?_
    · obtain ⟨hl, ho, hr⟩ := mem_of_mem_comparisons ht
      exact ((hb.parts _ hl).expression _ rfl).bind fun _ =>
        (fails_operator (hb.parts _ ho)).bind fun _ =>
          ((hb.parts _ hr).expression _ rfl).bind fun _ => .pure _
    · split
      · exact .pure _
      · exact hb.refuse

theorem fails_negation (hb : b.Blames F c.parent) : (b.negation c).Fails F := by
  unfold negation
  split
  · rename_i p hparts
    exact ((hb.without hparts p (by simp)).expression _ rfl).bind fun _ => .pure _
  · exact hb.refuse

/-- An operator that is none is refused as a part. -/
theorem fails_unary (hb : b.Blames F c.parent) : (b.unary c).Fails F := by
  unfold unary
  split
  · rename_i o p hparts
    split
    · exact (hb.parts o (by simp [hparts])).refuse rfl
    · exact ((hb.parts p (by simp [hparts])).expression _ rfl).bind fun _ => .pure _
  · exact hb.refuse

theorem fails_conditional (hb : b.Blames F c.parent) : (b.conditional c).Fails F := by
  unfold conditional
  split
  · rename_i x t y hparts
    have hps := hb.without hparts
    exact ((hps x (by simp)).expression _ rfl).bind fun _ =>
      ((hps t (by simp)).expression _ rfl).bind fun _ =>
        ((hps y (by simp)).expression _ rfl).bind fun _ => .pure _
  · exact hb.refuse

theorem fails_parenthesized (hb : b.Blames F c.parent) : (b.parenthesized c).Fails F := by
  unfold parenthesized
  split
  · rename_i p hparts
    exact ((hb.without hparts p (by simp)).expression _ rfl).bind fun _ => .pure _
  · exact hb.refuse

/-- **A formatted literal is refused by what stands inside it**, at its own
place. -/
theorem fails_string (hb : b.Blames F c.parent) (hkind : b.kind = .string) :
    b.string.Fails F := by
  unfold string
  split
  · rename_i hformatted
    rw [hkind]
    exact .fail (hb.formatted hkind hformatted)
  · exact .pure _

/-! ## Values, arguments, elements and targets -/

/-- **A value is refused with its own kind, place and parent**, or one of its
parts is. -/
theorem fails_expression (hb : b.Blames F c.parent) : (b.expression c).Fails F := by
  unfold expression
  split
  · exact .pure _
  · exact fails_memberAccess hb
  · exact fails_call hb
  · exact fails_subscript hb
  · exact fails_binary hb
  · exact fails_binary hb
  · exact fails_chain hb
  · exact fails_negation hb
  · exact fails_unary hb
  · exact fails_conditional hb
  · exact fails_parenthesized hb
  · exact fails_lambda hb
  · exact fails_string hb ‹_›
  · exact .pure _
  · exact .pure _
  · exact .pure _
  · exact .pure _
  · exact .pure _
  · exact fails_elements hb _
  · exact fails_elements hb _
  · exact fails_elements hb _
  · exact fails_dictionary hb
  · exact hb.refuse

/-- What is no argument of its own kind is a value. -/
theorem fails_argument (hb : b.Blames F c.parent) : (b.argument c).Fails F := by
  unfold argument
  split
  · exact fails_keywordArgument hb
  · exact fails_splat hb
  · exact fails_splat hb
  · exact fails_expression hb

theorem fails_element (hb : b.Blames F c.parent) : (b.element c).Fails F := by
  unfold element
  split
  · exact fails_splat hb
  · exact fails_expression hb

/-- **A target is refused like a value**, by fewer rules. -/
theorem fails_target (hb : b.Blames F c.parent) : (b.target c).Fails F := by
  unfold target
  split
  · exact .pure _
  · exact fails_memberAccess hb
  · exact fails_subscript hb
  · exact fails_targets hb _
  · exact fails_targets hb _
  · exact fails_targets hb _
  · exact fails_starredReference hb
  · exact hb.refuse

/-! ## Assignments and expressions as statements -/

/-- What follows a target is an operator, a type or a value. -/
theorem fails_assignmentTail {ps : List Part} (hps : ∀ p ∈ ps, p.Blames F inner.parent)
    {t : AssignmentTail} : (assignmentTail inner t ps).Fails F :=
  fun _ h => Part.Blames.failsAt hps (assignmentTail_eq_error h)

/-- Without any part the tree breaks a promise; the assignment itself is never
refused. -/
theorem fails_assignment (hb : b.Blames F c.parent) : (b.assignment c).Fails F := by
  unfold assignment
  split
  · exact .fail (hb.defect _)
  · rename_i p ps hparts
    have hps : ∀ q ∈ ps, q.Blames F (some b.kind) := fun q hq => hb.parts q (by simp [hparts, hq])
    exact ((hb.parts p (by simp [hparts])).target _ rfl).bind fun _ =>
      (fails_assignmentTail hps).bind fun _ => .pure _

/-- A statement of several parts is a tuple of them. -/
theorem fails_expressionStatement (hb : b.Blames F c.parent) :
    (b.expressionStatement c).Fails F := by
  unfold expressionStatement
  split
  · rename_i p hparts
    have hp := hb.parts p (by simp [hparts])
    split
    · exact hp.assignment _ rfl
    · exact hp.assignment _ rfl
    · split
      · exact .pure _
      · exact (hp.expression _ rfl).map
  · exact (fails_items hb.parts fun _ hp => hp.element _ rfl).bind fun _ => .pure _

/-! ## Control flow -/

theorem fails_body (hb : ∀ p ∈ b.parts, p.Blames F (some b.kind)) : (b.body c).Fails F :=
  (fails_buildEach fun p hp => (hb p hp).statement _ rfl).bind fun _ => .pure _

/-- A clause is built in the context of its own parts, so a second test is
refused as one of them. -/
theorem fails_choiceParts {ps : List Part} (hps : ∀ p ∈ ps, p.Blames F c.parent)
    {test : Option Expr} {body : List Stmt} : (choiceParts c test body ps).Fails F :=
  fun _ h => Part.Blames.failsAt hps (choiceParts_eq_error h)

theorem fails_choice (hb : ∀ p ∈ b.parts, p.Blames F (some b.kind))
    (hc : c.parent = some b.kind) : (b.choice c).Fails F :=
  fails_choiceParts (hc ▸ hb)

/-- The clauses are entered from the context of the conditional, each as its
own parent. -/
theorem fails_conditionalStatement (hb : b.Blames F c.parent) :
    (b.conditionalStatement c).Fails F :=
  (fails_choice hb.parts rfl).bind fun _ =>
    (fails_buildEach fun p hp => (hb.parts p (List.mem_filter.1 hp).1).choice _ rfl).bind
      fun _ => .pure _

/-- What has no place in the loop is refused as a part of it. -/
theorem fails_forParts {ps : List Part} (hps : ∀ p ∈ ps, p.Blames F inner.parent)
    {f : ForParts} : (forParts inner f ps).Fails F :=
  fun _ h => Part.Blames.failsAt hps (forParts_eq_error h)

/-- A loop without a target or a container is refused itself. -/
theorem fails_forStatement (hb : b.Blames F c.parent) : (b.forStatement c).Fails F := by
  refine (fails_forParts hb.parts).bind fun f => ?_
  split
  · exact .pure _
  · exact hb.refuse

theorem fails_whileParts {ps : List Part} (hps : ∀ p ∈ ps, p.Blames F inner.parent)
    {test : Option Expr} {body : List Stmt} : (whileParts inner test body ps).Fails F :=
  fun _ h => Part.Blames.failsAt hps (whileParts_eq_error h)

/-- A loop without a test is refused itself. -/
theorem fails_whileStatement (hb : b.Blames F c.parent) : (b.whileStatement c).Fails F := by
  refine (fails_whileParts hb.parts).bind fun q => ?_
  obtain ⟨_ | test, body⟩ := q
  · exact hb.refuse
  · exact .pure _

/-- A second value is refused as a part of the statement. -/
theorem fails_returnStatement (hb : b.Blames F c.parent) : (b.returnStatement c).Fails F := by
  unfold returnStatement
  split
  · exact .pure _
  · rename_i p hparts
    exact ((hb.without hparts p (by simp)).expression _ rfl).bind fun _ => .pure _
  · rename_i second _ hparts
    exact (hb.without hparts second (by simp)).refuse rfl

/-- A second value is refused as a part, and no value at all as the statement.
-/
theorem fails_raiseStatement (hb : b.Blames F c.parent) : (b.raiseStatement c).Fails F := by
  unfold raiseStatement
  split
  · exact hb.refuse
  · rename_i p hparts
    exact ((hb.without hparts p (by simp)).expression _ rfl).bind fun _ => .pure _
  · rename_i second _ hparts
    exact (hb.without hparts second (by simp)).refuse rfl

/-! ## Definitions -/

/-- What a function does not have is refused as a part of it. -/
theorem fails_functionParts {ps : List Part} (hps : ∀ p ∈ ps, p.Blames F inner.parent)
    {f : FunctionParts} : (functionParts inner f ps).Fails F :=
  fun _ h => Part.Blames.failsAt hps (functionParts_eq_error h)

theorem fails_function (hb : ∀ p ∈ b.parts, p.Blames F (some b.kind)) (ds : List String) :
    (b.function ds c).Fails F :=
  (fails_functionParts hb).bind fun _ => .pure _

theorem fails_classParts {ps : List Part} (hps : ∀ p ∈ ps, p.Blames F inner.parent)
    {f : ClassParts} : (classParts inner f ps).Fails F :=
  fun _ h => Part.Blames.failsAt hps (classParts_eq_error h)

theorem fails_classDefinition (hb : ∀ p ∈ b.parts, p.Blames F (some b.kind))
    (ds : List String) : (b.classDefinition ds c).Fails F :=
  (fails_classParts hb).bind fun _ => .pure _

/-- A definition is never refused itself, so a decorated one can be built
in the context of the node around its decorators. -/
theorem fails_definition (hb : ∀ p ∈ b.parts, p.Blames F (some b.kind)) (ds : List String) :
    (b.definition ds c).Fails F := by
  unfold definition
  split
  · exact fails_classDefinition hb ds
  · exact fails_function hb ds

/-- What is neither a decorator nor a definition is refused as a part; without
a definition the node is. -/
theorem fails_decoratedParts (hb : b.Blames F c.parent) {ps : List Part}
    (hps : ∀ p ∈ ps, p.Blames F (some b.kind)) (ds : List String) :
    (decoratedParts b c ds ps).Fails F := by
  induction ps generalizing ds with
  | nil => exact hb.refuse
  | cons p ps ih =>
    obtain ⟨hp, hps'⟩ := List.forall_mem_cons.1 hps
    unfold decoratedParts
    split
    · exact ih hps' _
    · exact hp.definition _ _
    · exact hp.definition _ _
    · exact hp.refuse rfl

/-! ## Statements and all roles -/

/-- **A statement is refused with its own kind, place and parent**, or one of
its parts is. -/
theorem fails_statement (hb : b.Blames F c.parent) : (b.statement c).Fails F := by
  unfold statement
  split
  · exact (fails_expressionStatement hb).map
  · exact (fails_function hb.parts _).map
  · exact (fails_classDefinition hb.parts _).map
  · exact (fails_decoratedParts hb hb.parts _).map
  · exact (fails_conditionalStatement hb).map
  · exact (fails_forStatement hb).map
  · exact (fails_whileStatement hb).map
  · exact (fails_returnStatement hb).map
  · exact (fails_raiseStatement hb).map
  · exact .pure _
  · exact .pure _
  · exact .pure _
  · exact .of_result rfl
  · exact .of_result rfl
  · exact .of_result rfl
  · exact hb.refuse

/-- **The step of the fold.** A node whose refusals have the property
fails, as a part, with nothing else. -/
theorem part_blames {parent : Option Kind} (hb : b.Blames F parent) :
    b.part.Blames F parent where
  own := hb.own
  statement _ hc := fails_statement (hc ▸ hb)
  expression _ hc := fails_expression (hc ▸ hb)
  argument _ hc := fails_argument (hc ▸ hb)
  element _ hc := fails_element (hc ▸ hb)
  target _ hc := fails_target (hc ▸ hb)
  parameter _ hc := fails_parameter (hc ▸ hb)
  body _ := fails_body hb.parts
  arguments _ := fails_arguments hb.parts
  parameters _ := fails_parameters hb.parts
  choice _ hc := fails_choice hb.parts hc
  assignment _ hc := fails_assignment (hc ▸ hb)
  definition ds _ := fails_definition hb.parts ds
  entry _ hc := fails_pair (hc ▸ hb)
  bounds _ hc := fails_bounds (hc ▸ hb)
  starred _ hc := fails_starred (hc ▸ hb)

end Branch

/-! ## Trees -/

/-- **What a tree may be refused with**: one of its nodes with the place
and the parent of the node, or what stands inside one of its formatted
strings. What breaks a promise of the parser is not refused. -/
inductive Cst.Refusal (file : String) (c : Cst) : Failure → Prop
  | node {parent : Option Kind} {x : Cst} : (parent, x) ∈ c.nodes none →
      Refusal file c (.unsupported x.kind.name (parentName parent) (x.location file))
  | formatted {parent : Option Kind} {x : Cst} : (parent, x) ∈ c.nodes none →
      x.kind = .string → Literal.isFormatted x.text = true →
      Refusal file c (.unsupported "interpolation" "string" (x.location file))
  | defect (d : Defect) : Refusal file c (.defect d)

namespace Cst

variable {file : String} {c : Cst} {e : Failure}

/-- **Down a tree.** A part whose nodes are nodes of a tree fails with
nothing but what the tree may be refused with. -/
theorem part_blames {x : Cst} {parent : Option Kind} (hx : x.nodes parent ⊆ c.nodes none) :
    (x.part file).Blames (c.Refusal file) parent := by
  induction x using Cst.induction generalizing parent with
  | leaf kind text span =>
    have hroot := hx (self_mem_nodes parent _)
    exact Branch.part_blames ⟨.node hroot, .formatted hroot, .defect, List.forall_mem_nil _⟩
  | tree kind children span ih =>
    have hroot := hx (self_mem_nodes parent _)
    refine Branch.part_blames ⟨.node hroot, .formatted hroot, .defect, fun p hp => ?_⟩
    obtain ⟨y, hy, rfl⟩ := mem_partsOf (List.mem_filter.1 hp).1
    exact ih y hy fun q hq => hx (nodes_child_subset hy hq)

/-- A tree that is no module is refused as a whole, and the statements of a
module one by one. -/
theorem refusal_of_build (h : (c.build file).result = .error e) : c.Refusal file e := by
  have hpart : (c.part file).Blames (c.Refusal file) none := part_blames (List.Subset.refl _)
  have hbuild : (c.build file).Fails (c.Refusal file) := by
    simp only [build]
    split
    · exact hpart.refuse rfl
    · exact (hpart.body _).bind fun _ => .pure _
  exact hbuild e h

end Cst

/-- **A refusal names its culprit.** If a tree is refused, then a node of
the tree has the kind and the place that are reported, and its parent the
kind that is reported as its context; or the report is about a formatted
string of the tree, at its place. -/
theorem refused_culprit {file : String} {c : Cst} {kind context : String} {loc : Option Location}
    (h : (c.build file).result = .error (.unsupported kind context loc)) :
    (∃ parent x, (parent, x) ∈ c.nodes none ∧ x.kind.name = kind ∧ x.location file = loc ∧
        parentName parent = context) ∨
      kind = "interpolation" ∧ context = "string" ∧ ∃ parent x, (parent, x) ∈ c.nodes none ∧
        x.kind = .string ∧ x.location file = loc ∧ Literal.isFormatted x.text = true := by
  generalize he : Failure.unsupported kind context loc = e at h
  cases Cst.refusal_of_build h with
  | node hx =>
    obtain ⟨⟨⟨rfl, rfl⟩, rfl⟩⟩ := he
    exact .inl ⟨_, _, hx, rfl, rfl, rfl⟩
  | formatted hx hkind hformatted =>
    obtain ⟨⟨⟨rfl, rfl⟩, rfl⟩⟩ := he
    exact .inr ⟨rfl, rfl, _, _, hx, hkind, rfl, hformatted⟩
  | defect d => cases he

/-- A decorated function that is marked as asynchronous. -/
def decoratedAsync : Cst :=
  .tree .moduleRoot [.tree .decoratedDefinition [.leaf .decorator "@d" none,
    .tree .functionDefinition [.leaf (.token "async") "async" none,
      .leaf .identifier "f" none] none] none] none

/-- The mark is refused as a part of the function, not of the decorated
definition whose context the function is built in. -/
theorem refused_culprit_async :
    (decoratedAsync.build "m").result =
      .error (.unsupported "async" "function_definition" none) ∧
    ∃ parent x, (parent, x) ∈ decoratedAsync.nodes none ∧ x.kind.name = "async" ∧
      x.location "m" = none ∧ parentName parent = "function_definition" := by
  have hbuild : (decoratedAsync.build "m").result =
      .error (.unsupported "async" "function_definition" none) := rfl
  exact ⟨hbuild, (refused_culprit hbuild).resolve_right fun h => absurd h.1 (by decide)⟩

/-- A statement of the kind that the inside of a formatted string is
reported as, in front of a formatted string. -/
def interpolationStatement : Cst :=
  .tree .moduleRoot [.tree .expressionStatement [.leaf (.token "interpolation") "x" none] none,
    .tree .expressionStatement [.leaf .string "f'y'" none] none] none

/-- **A report of an interpolation need not be about a formatted string.**
A node of that very kind is refused like any other, in the context of its
own parent. -/
theorem interpolation_refused_by_kind :
    (interpolationStatement.build "m").result =
      .error (.unsupported "interpolation" "expression_statement" none) ∧
    "expression_statement" ≠ "string" := by
  exact ⟨rfl, by decide⟩

end Scribe
