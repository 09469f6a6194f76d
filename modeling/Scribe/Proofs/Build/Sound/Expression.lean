import Scribe.Proofs.Build.Grammar
import Scribe.Proofs.Build.Loops

/-!
# Built expressions fit their roles

Every rule of the builder, given parts that build what fits their roles,
builds what fits its own. `Part.Sound` says this of a part, one clause
for each role. This file takes the rules for parameters, sequences and
expressions one by one; `Scribe.Proofs.Build.Sound.Statement` takes
those for statements and folds all of them over a tree.
-/

namespace Scribe

/-- **A part builds what fits its roles.** -/
structure Part.Sound (p : Part) : Prop where
  statement : ∀ c s, c.holdsStatements = true → (p.statement c).result = .ok (some s) →
    s.fits = true
  expression : ∀ c e, (p.expression c).result = .ok e → e.fits .value = true
  /-- Only a string literal is built as one, with its own text. -/
  string : ∀ c text loc, (p.expression c).result = .ok (.string text loc) →
    p.kind = .string ∧ text = p.text
  argument : ∀ c e, (p.argument c).result = .ok e → e.fits .argument = true
  /-- A starred dictionary is a starred name. -/
  spread : ∀ c e, p.kind = .dictionarySplat → (p.argument c).result = .ok e →
    e.fits .entry = true
  element : ∀ c e, (p.element c).result = .ok e → e.fits .element = true
  target : ∀ c e, (p.target c).result = .ok e → e.fits .target = true
  parameter : ∀ c e, (p.parameter c).result = .ok (some e) → e.fits .parameter = true
  body : ∀ c ss, c.holdsStatements = true → (p.body c).result = .ok ss →
    ∀ s ∈ ss, s.fits = true
  arguments : ∀ c es, (p.arguments c).result = .ok es → ∀ e ∈ es, e.fits .argument = true
  parameters : ∀ c es, (p.parameters c).result = .ok es → ∀ e ∈ es, e.fits .parameter = true
  choice : ∀ c ch, c.holdsStatements = true → (p.choice c).result = .ok ch → ch.fits = true
  assignment : ∀ c s, (p.assignment c).result = .ok s → s.fits = true
  definition : ∀ ds c s, (p.definition ds c).result = .ok s → s.fits = true
  entry : ∀ c e, (p.entry c).result = .ok e → e.fits .entry = true
  bounds : ∀ c e, (p.bounds c).result = .ok e →
    e.fits .index = true ∧ e.fits .indexItem = true

namespace Branch

variable {b : Branch} {c inner : Context} {e : Expr} {r : Role}

/-- The parts that are left without some tokens are sound like all. -/
theorem sound_of_partsWithout (hb : ∀ p ∈ b.parts, p.Sound) {names : List String}
    {ps : List Part} (h : b.partsWithout names = ps) : ∀ p ∈ ps, p.Sound := by
  rintro p hp
  exact hb p (mem_of_mem_partsWithout (h ▸ hp))

/-! ## Parameters -/

/-- A starred name fits wherever a splat does. -/
theorem fits_starredReference (hr : r.takesSplat = true)
    (h : (b.starredReference c).result = .ok e) : e.fits r = true := by
  obtain ⟨_, _, -, rfl⟩ := starredReference_eq_ok h
  exact hr

/-- **What is built as a parameter fits there**, by the rule for its kind. -/
theorem fits_parameter (hb : ∀ p ∈ b.parts, p.Sound)
    (h : (b.parameter c).result = .ok (some e)) : e.fits .parameter = true := by
  simp only [parameter] at h
  split at h
  · obtain rfl := Option.some.inj (Traced.pure_eq_ok.1 h)
    rfl
  · obtain ⟨e, he, ⟨⟩⟩ := Traced.map_eq_ok.1 h
    obtain ⟨p, d, value, hparts, -, hvalue, rfl⟩ := defaultParameter_eq_ok he
    exact (sound_of_partsWithout hb hparts d (by simp)).expression _ _ hvalue
  · obtain ⟨e, he, ⟨⟩⟩ := Traced.map_eq_ok.1 h
    obtain ⟨_, _, _, _, -, -, -, rfl⟩ := typedParameter_eq_ok he
    rfl
  · obtain ⟨e, he, ⟨⟩⟩ := Traced.map_eq_ok.1 h
    obtain ⟨p, t, d, value, hparts, -, -, hvalue, rfl⟩ := typedDefaultParameter_eq_ok he
    exact (sound_of_partsWithout hb hparts d (by simp)).expression _ _ hvalue
  · obtain ⟨e, he, ⟨⟩⟩ := Traced.map_eq_ok.1 h
    exact fits_starredReference rfl he
  · obtain ⟨e, he, ⟨⟩⟩ := Traced.map_eq_ok.1 h
    exact fits_starredReference rfl he
  · simp at h
  · simp at h
  · simp at h

theorem fits_parameters (hb : ∀ p ∈ b.parts, p.Sound) {es : List Expr}
    (h : (b.parameters c).result = .ok es) : ∀ e ∈ es, e.fits .parameter = true := by
  simp only [parameters, Traced.bind_eq_ok, Traced.pure_eq_ok] at h
  obtain ⟨os, hos, rfl⟩ := h
  have hall : ∀ o ∈ os, ∀ e ∈ o, e.fits .parameter = true := by
    refine forall_of_buildEach hos ?_
    rintro p hp o ho e rfl
    exact (hb p (mem_of_mem_partsWithout hp)).parameter _ _ ho
  intro e he
  obtain ⟨o, ho, rfl⟩ := List.mem_filterMap.1 he
  exact hall _ ho e rfl

/-- Parameters are gathered with those before them, and the body is a value.
-/
theorem fits_lambdaParts {ps : List Part} (hps : ∀ p ∈ ps, p.Sound) {es es' : List Expr}
    {body body' : Option Expr} (hes : ∀ e ∈ es, e.fits .parameter = true)
    (hbody : ∀ e ∈ body, e.fits .value = true)
    (h : (lambdaParts inner es body ps).result = .ok (es', body')) :
    (∀ e ∈ es', e.fits .parameter = true) ∧ ∀ e ∈ body', e.fits .value = true := by
  obtain ⟨hes', hbody'⟩ := lambdaParts_eq_ok h
  constructor
  · exact hes'.forall_all hes fun p hp => (hps p hp).parameters _
  · exact hbody'.forall_some hbody fun p hp => (hps p hp).expression _

theorem fits_lambda (hb : ∀ p ∈ b.parts, p.Sound) (h : (b.lambda c).result = .ok e) :
    e.fits .value = true := by
  obtain ⟨ps, body, hparts, rfl⟩ := lambda_eq_ok h
  obtain ⟨hps, hbody⟩ := fits_lambdaParts hb (by simp) (by simp) hparts
  simp only [Expr.fits, Bool.and_eq_true, Expr.allFit_iff]
  exact ⟨⟨rfl, hps⟩, hbody body rfl⟩

/-! ## Sequences and dictionaries -/

/-- A comma adds no item. -/
theorem forall_mem_separate {P : Expr → Prop} {is : List (Option Expr)}
    (h : ∀ e, some e ∈ is → P e) : ∀ e, some e ∈ Items.separate is → P e := by
  intro e he
  cases is with
  | nil => simp [Items.separate] at he
  | cons i is => exact h e (by simpa [Items.separate] using he)

/-- An item that is placed is the only new one. -/
theorem forall_mem_place {P : Expr → Prop} {is : List (Option Expr)} (he : P e)
    (h : ∀ e, some e ∈ is → P e) : ∀ x, some x ∈ Items.place e is → P x := by
  intro x hx
  cases is with
  | nil =>
    obtain rfl : x = e := by simpa [Items.place] using hx
    exact he
  | cons i is =>
    rcases List.mem_append.1 hx with hx | hx
    · exact h x (List.dropLast_subset _ hx)
    · obtain rfl : x = e := by simpa using hx
      exact he

/-- What fills the places of a sequence has a property that each item
has. -/
theorem forall_of_buildItems {P : Expr → Prop} {build : Part → Traced Expr} {ps : List Part}
    {is is' : List (Option Expr)} (h : (buildItems build is ps).result = .ok is')
    (his : ∀ e, some e ∈ is → P e) (hP : ∀ p ∈ ps, ∀ e, (build p).result = .ok e → P e) :
    ∀ e, some e ∈ is' → P e := by
  induction ps generalizing is with
  | nil =>
    obtain rfl := Traced.pure_eq_ok.1 h
    exact his
  | cons p ps ih =>
    have hP' : ∀ p ∈ ps, ∀ e, (build p).result = .ok e → P e :=
      fun q hq => hP q (List.mem_cons_of_mem _ hq)
    simp only [buildItems] at h
    split at h
    · exact ih h his hP'
    · split at h
      · exact ih h (forall_mem_separate his) hP'
      · obtain ⟨e, he, h⟩ := Traced.bind_eq_ok.1 h
        exact ih h (forall_mem_place (hP p (List.mem_cons_self ..) e he) his) hP'

/-- A list or tuple of elements is a value. A pattern is none, so its items
are targets. -/
theorem fits_elements (hb : ∀ p ∈ b.parts, p.Sound) {kind : SequenceKind}
    (hk : kind ≠ .pattern) (h : (b.elements kind c).result = .ok e) : e.fits .value = true := by
  obtain ⟨is, his, rfl⟩ := elements_eq_ok h
  have hall : ∀ e, some e ∈ is → e.fits .element = true :=
    forall_of_buildItems his (by simp) fun p hp e he => (hb p hp).element _ _ he
  simp [Expr.fits, Role.takesValue, hk, Expr.itemsFit_iff.2 hall]

theorem fits_targets (hb : ∀ p ∈ b.parts, p.Sound) {kind : SequenceKind}
    (h : (b.targets kind c).result = .ok e) : e.fits .target = true := by
  obtain ⟨is, his, rfl⟩ := targets_eq_ok h
  have hall : ∀ e, some e ∈ is → e.fits .target = true :=
    forall_of_buildItems his (by simp) fun p hp e he => (hb p hp).target _ _ he
  simp [Expr.fits, Expr.itemsFit_iff.2 hall]

/-- The entries of a dictionary are pairs and spread dictionaries. -/
theorem fits_dictionary (hb : ∀ p ∈ b.parts, p.Sound)
    (h : (b.dictionary c).result = .ok e) : e.fits .value = true := by
  obtain ⟨es, rfl, hes⟩ := dictionary_eq_ok h
  have hall : ∀ e ∈ es, e.fits .entry = true := by
    intro e he
    obtain ⟨p, hp, hx | ⟨hk, hx⟩⟩ := hes e he
    · exact (hb p hp).entry _ _ hx
    · exact (hb p hp).spread _ _ hk hx
  simp [Expr.fits, Role.takesValue, Expr.allFit_iff.2 hall]

theorem fits_pair (hb : ∀ p ∈ b.parts, p.Sound) (h : (b.pair c).result = .ok e) :
    e.fits .entry = true := by
  obtain ⟨k, v, key, value, hparts, hkey, hvalue, rfl⟩ := pair_eq_ok h
  have hps := sound_of_partsWithout hb hparts
  simp [Expr.fits, (hps k (by simp)).expression _ _ hkey,
    (hps v (by simp)).expression _ _ hvalue]

/-! ## Access and calls -/

/-- A property of a value fits as a value and as a target. -/
theorem fits_memberAccess (hb : ∀ p ∈ b.parts, p.Sound) (hr : r.takesAccess = true)
    (h : (b.memberAccess c).result = .ok e) : e.fits r = true := by
  obtain ⟨o, p, object, hparts, -, hobject, rfl⟩ := memberAccess_eq_ok h
  have ho := sound_of_partsWithout hb hparts o (by simp)
  simp [Expr.fits, hr, ho.expression _ _ hobject, Expr.isName]

theorem fits_arguments (hb : ∀ p ∈ b.parts, p.Sound) {es : List Expr}
    (h : (b.arguments c).result = .ok es) : ∀ e ∈ es, e.fits .argument = true :=
  forall_of_buildEach h fun p hp _ he =>
    (hb p (mem_of_mem_partsWithout hp)).argument _ _ he

/-- The callee is a value and the arguments fit as arguments. -/
theorem fits_call (hb : ∀ p ∈ b.parts, p.Sound) (h : (b.call c).result = .ok e) :
    e.fits .value = true := by
  obtain ⟨f, as, callee, arguments, hparts, -, hcallee, harguments, rfl⟩ := call_eq_ok h
  simp only [Expr.fits, Bool.and_eq_true, Expr.allFit_iff]
  exact ⟨⟨rfl, (hb f (by simp [hparts])).expression _ _ hcallee⟩,
    (hb as (by simp [hparts])).arguments _ _ harguments⟩

theorem fits_keywordArgument (hb : ∀ p ∈ b.parts, p.Sound)
    (h : (b.keywordArgument c).result = .ok e) : e.fits .argument = true := by
  obtain ⟨n, v, value, hparts, -, hvalue, rfl⟩ := keywordArgument_eq_ok h
  exact (sound_of_partsWithout hb hparts v (by simp)).expression _ _ hvalue

/-- A spread name fits wherever a splat does. -/
theorem fits_splat (hr : r.takesSplat = true) (h : (b.splat c).result = .ok e) :
    e.fits r = true := by
  obtain ⟨_, _, _, -, -, -, rfl⟩ := splat_eq_ok h
  exact hr

/-- The bounds that are set are values. -/
def Bounds.Fit (bs : Bounds) : Prop :=
  ∀ e, bs.start = some e ∨ bs.stop = some e ∨ bs.step = some e → e.fits .value = true

/-- Bounds are set to values only. -/
theorem fit_buildBounds {ps : List Part} (hps : ∀ p ∈ ps, p.Sound) {place : Nat}
    {bs bs' : Bounds} (hbs : bs.Fit) (h : (buildBounds inner place bs ps).result = .ok bs') :
    bs'.Fit :=
  (buildBounds_eq_ok h).forall_bounds hbs fun p hp => (hps p hp).expression _

/-- A slice fits as an index and inside one. -/
theorem fits_bounds (hb : ∀ p ∈ b.parts, p.Sound) (h : (b.bounds c).result = .ok e) :
    e.fits .index = true ∧ e.fits .indexItem = true := by
  obtain ⟨bs, hbs, rfl⟩ := bounds_eq_ok h
  have hall : bs.Fit := fit_buildBounds hb (by simp [Bounds.Fit]) hbs
  have hstart : Expr.optionFits .value bs.start = true :=
    Expr.optionFits_iff.2 fun e he => hall e (.inl he)
  have hstop : Expr.optionFits .value bs.stop = true :=
    Expr.optionFits_iff.2 fun e he => hall e (.inr (.inl he))
  have hstep : Expr.optionFits .value bs.step = true :=
    Expr.optionFits_iff.2 fun e he => hall e (.inr (.inr he))
  simp [Expr.fits, hstart, hstop, hstep]

/-- One index is the index itself, several are a tuple of them. -/
theorem fits_indexOf {is : List Expr}
    (h : ∀ i ∈ is, i.fits .index = true ∧ i.fits .indexItem = true) :
    (indexOf is).fits .index = true := by
  unfold indexOf
  split
  · exact (h _ (List.mem_singleton_self _)).1
  · have hitems : Expr.itemsFit .indexItem (is.map some) = true :=
      Expr.itemsFit_iff.2 fun i hi => (h i (by simpa using hi)).2
    simp [Expr.fits, hitems]

/-- An element of a value fits as a value and as a target. -/
theorem fits_subscript (hb : ∀ p ∈ b.parts, p.Sound) (hr : r.takesAccess = true)
    (h : (b.subscript c).result = .ok e) : e.fits r = true := by
  obtain ⟨v, rest, value, indices, hparts, hvalue, hindices, -, rfl⟩ := subscript_eq_ok h
  have hindex : ∀ i ∈ indices, i.fits .index = true ∧ i.fits .indexItem = true := by
    refine forall_of_buildEach hindices fun p hp i hi => ?_
    have hp := hb p (by simp [hparts, (List.mem_filter.1 hp).1])
    unfold index at hi
    split at hi
    · exact hp.bounds _ _ hi
    · have hi := hp.expression _ _ hi
      exact ⟨Expr.fits_of_value hi rfl, Expr.fits_of_value hi rfl⟩
  simp [Expr.fits, hr, (hb v (by simp [hparts])).expression _ _ hvalue, fits_indexOf hindex]

/-! ## Operators -/

theorem fits_binary (hb : ∀ p ∈ b.parts, p.Sound) (h : (b.binary c).result = .ok e) :
    e.fits .value = true := by
  obtain ⟨l, o, r, left, op, right, hparts, hleft, -, hright, rfl⟩ := binary_eq_ok h
  simp [Expr.fits, Role.takesValue, (hb l (by simp [hparts])).expression _ _ hleft,
    (hb r (by simp [hparts])).expression _ _ hright]

/-- A conjunction of values is a value. -/
theorem fits_conjunction {loc : Option Location} {rest : List Expr} (he : e.fits .value = true)
    (hrest : ∀ x ∈ rest, x.fits .value = true) :
    (conjunction loc e rest).fits .value = true := by
  unfold conjunction
  induction rest generalizing e with
  | nil => exact he
  | cons x rest ih =>
    have hx := hrest x (List.mem_cons_self ..)
    exact ih (by simp [Expr.fits, Role.takesValue, he, hx])
      fun y hy => hrest y (List.mem_cons_of_mem _ hy)

/-- **A chain of comparisons is a value.** Its operands are parts of the
chain. -/
theorem fits_chain (hb : ∀ p ∈ b.parts, p.Sound) (h : (b.chain c).result = .ok e) :
    e.fits .value = true := by
  obtain ⟨first, rest, -, -, hes, rfl⟩ := chain_eq_ok h
  have hall : ∀ e ∈ first :: rest, e.fits .value = true := by
    refine forall_of_buildEach hes fun t ht e he => ?_
    obtain ⟨h1, -, h2⟩ := mem_of_mem_comparisons ht
    obtain ⟨left, op, right, hleft, -, hright, rfl⟩ := comparison_eq_ok he
    simp [Expr.fits, Role.takesValue, (hb _ h1).expression _ _ hleft,
      (hb _ h2).expression _ _ hright]
  exact fits_conjunction (hall first (List.mem_cons_self ..))
    fun x hx => hall x (List.mem_cons_of_mem _ hx)

theorem fits_negation (hb : ∀ p ∈ b.parts, p.Sound) (h : (b.negation c).result = .ok e) :
    e.fits .value = true := by
  obtain ⟨p, v, hparts, hv, rfl⟩ := negation_eq_ok h
  have hfits := (sound_of_partsWithout hb hparts p (by simp)).expression _ _ hv
  simp [Expr.fits, Role.takesValue, hfits]

theorem fits_unary (hb : ∀ p ∈ b.parts, p.Sound) (h : (b.unary c).result = .ok e) :
    e.fits .value = true := by
  obtain ⟨o, p, op, v, hparts, -, hv, rfl⟩ := unary_eq_ok h
  have hfits := (hb p (by simp [hparts])).expression _ _ hv
  simp [Expr.fits, Role.takesValue, hfits]

theorem fits_conditional (hb : ∀ p ∈ b.parts, p.Sound) (h : (b.conditional c).result = .ok e) :
    e.fits .value = true := by
  obtain ⟨x, t, y, vx, vt, vy, hparts, hx, ht, hy, rfl⟩ := conditional_eq_ok h
  have hps := sound_of_partsWithout hb hparts
  simp [Expr.fits, Role.takesValue, (hps x (by simp)).expression _ _ hx,
    (hps t (by simp)).expression _ _ ht, (hps y (by simp)).expression _ _ hy]

theorem fits_parenthesized (hb : ∀ p ∈ b.parts, p.Sound)
    (h : (b.parenthesized c).result = .ok e) : e.fits .value = true := by
  obtain ⟨p, v, hparts, hv, rfl⟩ := parenthesized_eq_ok h
  have hfits := (sound_of_partsWithout hb hparts p (by simp)).expression _ _ hv
  simp [Expr.fits, Role.takesValue, hfits]

/-! ## Roles -/

/-- **What is built as a value fits as one.** -/
theorem fits_expression (hb : ∀ p ∈ b.parts, p.Sound) (h : (b.expression c).result = .ok e) :
    e.fits .value = true := by
  simp only [expression] at h
  split at h
  · obtain rfl := Traced.pure_eq_ok.1 h; rfl
  · exact fits_memberAccess hb rfl h
  · exact fits_call hb h
  · exact fits_subscript hb rfl h
  · exact fits_binary hb h
  · exact fits_binary hb h
  · exact fits_chain hb h
  · exact fits_negation hb h
  · exact fits_unary hb h
  · exact fits_conditional hb h
  · exact fits_parenthesized hb h
  · exact fits_lambda hb h
  · obtain rfl := string_eq_ok h; rfl
  · obtain rfl := Traced.pure_eq_ok.1 h; rfl
  · obtain rfl := Traced.pure_eq_ok.1 h; rfl
  · obtain rfl := Traced.pure_eq_ok.1 h; rfl
  · obtain rfl := Traced.pure_eq_ok.1 h; rfl
  · obtain rfl := Traced.pure_eq_ok.1 h; rfl
  · exact fits_elements hb (by decide) h
  · exact fits_elements hb (by decide) h
  · exact fits_elements hb (by decide) h
  · exact fits_dictionary hb h
  · simp at h

/-- **What is built as an argument fits as one.** -/
theorem fits_argument (hb : ∀ p ∈ b.parts, p.Sound) (h : (b.argument c).result = .ok e) :
    e.fits .argument = true := by
  simp only [argument] at h
  split at h
  · exact fits_keywordArgument hb h
  · exact fits_splat rfl h
  · exact fits_splat rfl h
  · exact Expr.fits_of_value (fits_expression hb h) rfl

/-- A dictionary that is spread fits among entries. -/
theorem fits_spread (hk : b.kind = .dictionarySplat) (h : (b.argument c).result = .ok e) :
    e.fits .entry = true := by
  simp only [argument, hk] at h
  exact fits_splat rfl h

theorem fits_element (hb : ∀ p ∈ b.parts, p.Sound) (h : (b.element c).result = .ok e) :
    e.fits .element = true := by
  simp only [element] at h
  split at h
  · exact fits_splat rfl h
  · exact Expr.fits_of_value (fits_expression hb h) rfl

/-- **What is built as a target fits as one.** -/
theorem fits_target (hb : ∀ p ∈ b.parts, p.Sound) (h : (b.target c).result = .ok e) :
    e.fits .target = true := by
  simp only [target] at h
  split at h
  · obtain rfl := Traced.pure_eq_ok.1 h; rfl
  · exact fits_memberAccess hb rfl h
  · exact fits_subscript hb rfl h
  · exact fits_targets hb h
  · exact fits_targets hb h
  · exact fits_targets hb h
  · exact fits_starredReference rfl h
  · simp at h

end Branch

end Scribe
