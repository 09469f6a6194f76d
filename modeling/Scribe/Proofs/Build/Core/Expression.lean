import Scribe.Build.Expression

/-!
# What a rule looks at

A part shows its parent more than the parent looks at: what was skipped
on the way to a result, the text of a node that is no name, literal or
type, and roles that a body is never asked for. The *core* of a part
leaves these out.

No rule of the builder looks past the core. There is one lemma for every
rule, `result_…_core`: applied to the cores of its parts the rule gives
the result it gives on the parts. `Branch.core_part_core` collects them.
-/

namespace Scribe

namespace Traced

variable {α β : Type}

/-- The result, with nothing skipped. -/
def quiet (x : Traced α) : Traced α := ⟨[], x.result⟩

/-- Quiet results are the same if what they result in is. -/
theorem quiet_congr {x y : Traced α} (h : x.result = y.result) : x.quiet = y.quiet :=
  congrArg (Traced.mk []) h

/-- Two steps result in the same if both of their steps do, whatever they
skip. -/
theorem result_bind_congr {x y : Traced α} {f g : α → Traced β} (h : x.result = y.result)
    (hf : ∀ a, (f a).result = (g a).result) : (x >>= f).result = (y >>= g).result := by
  rw [result_bind, result_bind, h, funext hf]

theorem result_map_congr {x y : Traced α} (f : α → β) (h : x.result = y.result) :
    (f <$> x).result = (f <$> y).result :=
  result_bind_congr h fun _ => rfl

/-- A rule may branch on anything that the core keeps. -/
theorem result_ite_congr {p : Prop} [Decidable p] {x x' y y' : Traced α}
    (h : p → x.result = x'.result) (h' : ¬ p → y.result = y'.result) :
    (if p then x else y).result = (if p then x' else y').result := by
  split
  · exact h ‹_›
  · exact h' ‹_›

end Traced

/-- The kinds of the nodes whose text is read. -/
def Kind.bearsText : Kind → Bool
  | identifier => true
  | string => true
  | integer => true
  | float => true
  | type => true
  | decorator => true
  | _ => false

/-- The kinds of the nodes that hold statements, one after another. -/
def Kind.holdsBody : Kind → Bool
  | moduleRoot => true
  | block => true
  | _ => false

/-! ## Cores -/

namespace Part

variable {α : Type} (p : Part) (c : Context)

/-- A role that a body does not have. -/
def unlessBody (role : Context → Traced α) : Traced α :=
  if p.kind.holdsBody then p.refuse c else (role c).quiet

/-- **The core of a part**: results without what was skipped, the text
if it is one that is read, and of a body only the roles it can have. -/
def core : Part where
  kind := p.kind
  text := if p.kind.bearsText then p.text else ""
  loc := p.loc
  statement c := (p.statement c).quiet
  expression c := (p.expression c).quiet
  argument c := (p.argument c).quiet
  element c := (p.element c).quiet
  target c := (p.target c).quiet
  parameter c := (p.parameter c).quiet
  body c := (p.body c).quiet
  arguments c := p.unlessBody c p.arguments
  parameters c := p.unlessBody c p.parameters
  choice c := p.unlessBody c p.choice
  assignment c := p.unlessBody c p.assignment
  definition decorators c := p.unlessBody c (p.definition decorators)
  entry c := p.unlessBody c p.entry
  bounds c := p.unlessBody c p.bounds
  starred c := p.unlessBody c p.starred

@[simp] theorem kind_core : p.core.kind = p.kind := rfl

@[simp] theorem loc_core : p.core.loc = p.loc := rfl

/-- The text of a name, a literal or a type is in the core. -/
@[simp] theorem text_core (h : p.kind.bearsText = true) : p.core.text = p.text :=
  if_pos h

@[simp] theorem refuse_core : (p.core.refuse c : Traced α) = p.refuse c := rfl

/-- A body has values like any other part: a block is refused as one. -/
@[simp] theorem result_expression_core :
    (p.core.expression c).result = (p.expression c).result := rfl

@[simp] theorem result_argument_core : (p.core.argument c).result = (p.argument c).result := rfl

@[simp] theorem result_element_core : (p.core.element c).result = (p.element c).result := rfl

@[simp] theorem result_target_core : (p.core.target c).result = (p.target c).result := rfl

@[simp] theorem result_parameter_core :
    (p.core.parameter c).result = (p.parameter c).result := rfl

@[simp] theorem result_statement_core :
    (p.core.statement c).result = (p.statement c).result := rfl

@[simp] theorem result_body_core : (p.core.body c).result = (p.body c).result := rfl

/-- Of a body nothing but its kind and place is seen in such a role. -/
theorem unlessBody_congr {q : Part} (hkind : p.kind = q.kind) (hloc : p.loc = q.loc)
    {role role' : Context → Traced α} (h : (role c).result = (role' c).result) :
    p.unlessBody c role = q.unlessBody c role' := by
  rw [unlessBody, unlessBody, refuse, refuse, hkind, hloc, Traced.quiet_congr h]

/-- A role that a body does not have is in the core of every other
part. -/
theorem result_unlessBody (h : p.kind.holdsBody = false) (role : Context → Traced α) :
    (p.unlessBody c role).result = (role c).result := by
  rw [unlessBody, h]
  rfl

/-- Only the text of an identifier is read as a name. -/
@[simp] theorem result_name_core : (p.core.name c).result = (p.name c).result := by
  by_cases hk : p.kind = .identifier
  · simp [name, hk, Kind.bearsText]
  · simp [name, hk]

end Part

namespace Branch

variable (b : Branch) (c : Context)

/-- **The core of a node**: its parts are cores. -/
def core : Branch where
  kind := b.kind
  text := if b.kind.bearsText then b.text else ""
  loc := b.loc
  parts := b.parts.map Part.core

@[simp] theorem kind_core : b.core.kind = b.kind := rfl

@[simp] theorem loc_core : b.core.loc = b.loc := rfl

@[simp] theorem parts_core : b.core.parts = b.parts.map Part.core := rfl

@[simp] theorem text_core (h : b.kind.bearsText = true) : b.core.text = b.text :=
  if_pos h

@[simp] theorem refuse_core {α : Type} : (b.core.refuse c : Traced α) = b.refuse c := rfl

/-- Tokens are found by their kind, which the core keeps. -/
@[simp] theorem partsWithout_core (names : List String) :
    b.core.partsWithout names = (b.partsWithout names).map Part.core := by
  rw [partsWithout, partsWithout, parts_core, List.filter_map]
  rfl

end Branch

/-- Parts that are built one after another may be exchanged for their cores.
-/
theorem result_buildEach_core {α : Type} {f g : Part → Traced α} {ps : List Part}
    (h : ∀ p ∈ ps, (f p.core).result = (g p).result) :
    (buildEach f (ps.map Part.core)).result = (buildEach g ps).result := by
  induction ps with
  | nil => rfl
  | cons p ps ih =>
    have hp := h p (List.mem_cons_self ..)
    have hps := ih fun q hq => h q (List.mem_cons_of_mem _ hq)
    simp only [List.map_cons, buildEach, Traced.result_bind, hp, hps]

namespace Branch

variable (b : Branch) (c : Context)

/-! ## Parameters -/

/-- Behind the stars a single name is looked at. -/
@[simp] theorem result_starred_core : (b.core.starred c).result = (b.starred c).result := by
  simp only [starred, kind_core, partsWithout_core]
  cases b.kind.patternSplat? with
  | none => rfl
  | some splat =>
    rcases b.partsWithout ["*", "**"] with _ | ⟨p, _ | ⟨q, ps⟩⟩ <;> simp

theorem result_starredReference_core :
    (b.core.starredReference c).result = (b.starredReference c).result := by
  simp [starredReference]

/-- A default is looked at as a value and the part in front of it as a name.
-/
theorem result_defaultParameter_core :
    (b.core.defaultParameter c).result = (b.defaultParameter c).result := by
  simp only [defaultParameter, partsWithout_core]
  rcases b.partsWithout ["="] with _ | ⟨p, _ | ⟨d, _ | ⟨q, ps⟩⟩⟩ <;> simp

/-- A starred part is no body. -/
theorem holdsBody_of_patternSplat {k : Kind} (h : k.patternSplat?.isSome = true) :
    k.holdsBody = false := by
  unfold Kind.patternSplat? at h
  split at h
  · rfl
  · rfl
  · cases h

/-- What is typed is a starred part, which is no body, or a name. -/
theorem result_typedParameter_core :
    (b.core.typedParameter c).result = (b.typedParameter c).result := by
  simp only [typedParameter, partsWithout_core]
  rcases b.partsWithout [":"] with _ | ⟨p, _ | ⟨t, _ | ⟨q, ps⟩⟩⟩
  · rfl
  · rfl
  · by_cases ht : t.kind = .type
    · by_cases hp : p.kind.patternSplat?.isSome = true
      · have hstarred : ∀ c, (p.core.starred c).result = (p.starred c).result :=
          fun c => p.result_unlessBody c (holdsBody_of_patternSplat hp) p.starred
        simp [ht, hp, Kind.bearsText, hstarred]
      · simp [ht, hp, Kind.bearsText]
    · simp [ht]
  · rfl

theorem result_typedDefaultParameter_core :
    (b.core.typedDefaultParameter c).result = (b.typedDefaultParameter c).result := by
  simp only [typedDefaultParameter, partsWithout_core]
  rcases b.partsWithout [":", "="] with _ | ⟨p, _ | ⟨t, _ | ⟨d, _ | ⟨q, ps⟩⟩⟩⟩
  · rfl
  · rfl
  · rfl
  · by_cases ht : t.kind = .type
    · simp [ht, Kind.bearsText]
    · simp [ht]
  · rfl

/-- A name is built from its text, which is in the core. -/
theorem reference_core (h : b.kind = .identifier) : b.core.reference = b.reference := by
  simp [reference, h, Kind.bearsText]

/-- Every rule for parameters looks at cores only. -/
@[simp] theorem result_parameter_core : (b.core.parameter c).result = (b.parameter c).result := by
  unfold parameter
  rw [kind_core]
  split
  · rename_i hk
    rw [reference_core b hk]
  · exact Traced.result_map_congr some (b.result_defaultParameter_core c)
  · exact Traced.result_map_congr some (b.result_typedParameter_core c)
  · exact Traced.result_map_congr some (b.result_typedDefaultParameter_core c)
  · exact Traced.result_map_congr some (b.result_starredReference_core c)
  · exact Traced.result_map_congr some (b.result_starredReference_core c)
  · rfl
  · rfl
  · rfl

@[simp] theorem result_parameters_core :
    (b.core.parameters c).result = (b.parameters c).result := by
  simp only [parameters, partsWithout_core, kind_core, Traced.result_bind]
  rw [result_buildEach_core fun p _ => p.result_parameter_core _]

/-- Parameters are asked of a part that is a list of them, so of no body. -/
theorem result_lambdaParts_core (inner : Context) (es : List Expr) (body : Option Expr)
    (ps : List Part) : (lambdaParts inner es body (ps.map Part.core)).result =
      (lambdaParts inner es body ps).result := by
  induction ps generalizing es body with
  | nil => rfl
  | cons p ps ih =>
    rw [List.map_cons, lambdaParts, lambdaParts]
    refine Traced.result_ite_congr (fun _ => ih es body) fun _ => ?_
    refine Traced.result_ite_congr (fun hk => ?_) fun _ => ?_
    · refine Traced.result_bind_congr ?_ fun es => ih es body
      exact p.result_unlessBody inner (congrArg Kind.holdsBody hk) p.parameters
    · refine Traced.result_ite_congr (fun _ => ?_) fun _ => rfl
      exact Traced.result_bind_congr rfl fun e => ih es (some e)

theorem result_lambda_core : (b.core.lambda c).result = (b.lambda c).result := by
  unfold lambda
  refine Traced.result_bind_congr (result_lambdaParts_core _ _ _ _) fun _ => rfl

/-! ## Sequences -/

/-- A rule for the items of a sequence that looks at their cores looks at that
of the sequence. -/
theorem result_items_core (build : Part → Context → Traced Expr)
    (h : ∀ p c, (build p.core c).result = (build p c).result) :
    (b.core.items c build).result = (b.items c build).result := by
  have hitems : ∀ inner is ps, (buildItems (build · inner) is (ps.map Part.core)).result =
      (buildItems (build · inner) is ps).result := by
    intro inner is ps
    induction ps generalizing is with
    | nil => rfl
    | cons p ps ih =>
      rw [List.map_cons, buildItems, buildItems]
      refine Traced.result_ite_congr (fun _ => ih is) fun _ => ?_
      refine Traced.result_ite_congr (fun _ => ih (Items.separate is)) fun _ => ?_
      exact Traced.result_bind_congr (h p inner) fun e => ih (Items.place e is)
  exact hitems _ [] b.parts

theorem result_elements_core (kind : SequenceKind) :
    (b.core.elements kind c).result = (b.elements kind c).result :=
  Traced.result_bind_congr (b.result_items_core c _ Part.result_element_core) fun _ => rfl

theorem result_targets_core (kind : SequenceKind) :
    (b.core.targets kind c).result = (b.targets kind c).result :=
  Traced.result_bind_congr (b.result_items_core c _ Part.result_target_core) fun _ => rfl

/-- An entry is asked of a pair, so of no body. -/
theorem result_dictionary_core : (b.core.dictionary c).result = (b.dictionary c).result := by
  unfold dictionary
  rw [partsWithout_core]
  refine Traced.result_bind_congr (result_buildEach_core fun p _ => ?_) fun _ => rfl
  dsimp only [Part.kind_core]
  split
  · rename_i hk
    exact p.result_unlessBody _ (congrArg Kind.holdsBody hk) p.entry
  · rfl
  · rfl

theorem result_pair_core : (b.core.pair c).result = (b.pair c).result := by
  simp only [pair, partsWithout_core]
  rcases b.partsWithout [":"] with _ | ⟨k, _ | ⟨v, _ | ⟨q, ps⟩⟩⟩ <;> simp

/-! ## Expressions -/

/-- Only the text of an identifier is read as a property. -/
theorem result_memberAccess_core :
    (b.core.memberAccess c).result = (b.memberAccess c).result := by
  simp only [memberAccess, partsWithout_core]
  rcases b.partsWithout ["."] with _ | ⟨o, _ | ⟨p, _ | ⟨q, ps⟩⟩⟩
  · rfl
  · rfl
  · by_cases hp : p.kind = .identifier
    · simp [hp, Kind.bearsText]
    · simp [hp]
  · rfl

/-- Arguments are asked of a list of arguments, so of no body; every other
part is refused for its kind. -/
theorem result_call_core : (b.core.call c).result = (b.call c).result := by
  simp only [call, parts_core]
  rcases b.parts with _ | ⟨f, _ | ⟨as, _ | ⟨q, ps⟩⟩⟩
  · rfl
  · rfl
  · refine Traced.result_ite_congr (fun _ => rfl) fun hk => ?_
    refine Traced.result_bind_congr rfl fun callee => ?_
    refine Traced.result_bind_congr ?_ fun _ => rfl
    exact as.result_unlessBody _ (congrArg Kind.holdsBody (Decidable.of_not_not hk)) as.arguments
  -- with more than two parts the last one is refused
  · rw [List.getLast?_map]
    cases (f :: as :: q :: ps).getLast? with
    | none => rfl
    | some last => rfl

@[simp] theorem result_arguments_core :
    (b.core.arguments c).result = (b.arguments c).result := by
  unfold arguments
  rw [partsWithout_core]
  exact result_buildEach_core fun p _ => rfl

/-- The name of an argument is the text of an identifier. -/
theorem result_keywordArgument_core :
    (b.core.keywordArgument c).result = (b.keywordArgument c).result := by
  simp only [keywordArgument, partsWithout_core]
  rcases b.partsWithout ["="] with _ | ⟨n, _ | ⟨v, _ | ⟨q, ps⟩⟩⟩
  · rfl
  · rfl
  · by_cases hn : n.kind = .identifier
    · simp [hn, Kind.bearsText]
    · simp [hn]
  · rfl

/-- Stars are told apart by the kinds of their tokens. -/
theorem result_splat_core : (b.core.splat c).result = (b.splat c).result := by
  simp only [splat, parts_core]
  rcases b.parts with _ | ⟨star, _ | ⟨p, _ | ⟨q, ps⟩⟩⟩
  · rfl
  · rfl
  · have hstar : starSplat? star.core = starSplat? star := rfl
    simp only [List.map_cons, List.map_nil, hstar]
    cases starSplat? star with
    | none => rfl
    | some s =>
      by_cases hp : p.kind = .identifier
      · simp [hp, Kind.bearsText]
      · simp [hp]
  · rfl

/-- Bounds are asked of a slice, so of no body. -/
theorem result_index_core (p : Part) (inner : Context) :
    (index p.core inner).result = (index p inner).result := by
  refine Traced.result_ite_congr (fun hk => ?_) fun _ => rfl
  exact p.result_unlessBody inner (congrArg Kind.holdsBody hk) p.bounds

/-- Brackets and commas are dropped by their kinds, and each index is looked
at on its own. -/
theorem result_subscript_core : (b.core.subscript c).result = (b.subscript c).result := by
  simp only [subscript, parts_core]
  cases b.parts with
  | nil => rfl
  | cons v rest =>
    have hrest : (rest.map Part.core).filter (!·.isTokenOf ["[", "]", ","]) =
        (rest.filter (!·.isTokenOf ["[", "]", ","])).map Part.core := by
      rw [List.filter_map]
      rfl
    rw [List.map_cons]
    refine Traced.result_bind_congr rfl fun value => ?_
    rw [hrest]
    refine Traced.result_bind_congr ?_ fun _ => rfl
    exact result_buildEach_core fun p _ => result_index_core p _

/-- The places of the bounds depend on the colons, which are tokens. -/
theorem result_buildBounds_core (inner : Context) (place : Nat) (bs : Bounds) (ps : List Part) :
    (buildBounds inner place bs (ps.map Part.core)).result =
      (buildBounds inner place bs ps).result := by
  induction ps generalizing place bs with
  | nil => rfl
  | cons p ps ih =>
    rw [List.map_cons, buildBounds, buildBounds]
    refine Traced.result_ite_congr (fun _ => ih (place + 1) bs) fun _ => ?_
    refine Traced.result_bind_congr rfl fun e => ?_
    cases bs.set? place e with
    | none => rfl
    | some bs => exact ih place bs

@[simp] theorem result_bounds_core : (b.core.bounds c).result = (b.bounds c).result :=
  Traced.result_bind_congr (result_buildBounds_core _ _ _ b.parts) fun _ => rfl

/-! ## Operators -/

@[simp] theorem operator_core (p : Part) (inner : Context) :
    operator p.core inner = operator p inner := rfl

theorem result_binary_core : (b.core.binary c).result = (b.binary c).result := by
  simp only [binary, parts_core]
  rcases b.parts with _ | ⟨l, _ | ⟨o, _ | ⟨r, _ | ⟨q, ps⟩⟩⟩⟩ <;> simp

/-- The comparisons of cores are those of the parts, each with the cores
of its three parts. -/
theorem comparisons_core (ps : List Part) : comparisons (ps.map Part.core) =
    (comparisons ps).map fun t => (t.1.core, t.2.1.core, t.2.2.core) := by
  induction ps using comparisons.induct with
  | case1 l o r rest ih =>
    rw [List.map_cons] at ih
    simp only [List.map_cons, comparisons, ih]
  | case2 ps hps =>
    rcases ps with _ | ⟨l, _ | ⟨o, _ | ⟨r, rest⟩⟩⟩
    · rfl
    · rfl
    · rfl
    · exact absurd rfl (hps l o r rest)

/-- A chain is as long as its parts are many, and each comparison looks at the
cores of three of them. -/
theorem result_chain_core : (b.core.chain c).result = (b.chain c).result := by
  have heach : ∀ (loc : Option Location) (inner : Context) (ts : List (Part × Part × Part)),
      (buildEach (comparison loc inner)
        (ts.map fun t => (t.1.core, t.2.1.core, t.2.2.core))).result =
      (buildEach (comparison loc inner) ts).result := by
    intro loc inner ts
    induction ts with
    | nil => rfl
    | cons t ts ih =>
      rw [List.map_cons, buildEach, buildEach]
      refine Traced.result_bind_congr ?_ fun e => Traced.result_bind_congr ih fun _ => rfl
      simp [comparison]
  unfold chain
  rw [parts_core, List.length_map, comparisons_core]
  refine Traced.result_ite_congr (fun _ => rfl) fun _ => ?_
  exact Traced.result_bind_congr (heach _ _ _) fun _ => rfl

theorem result_negation_core : (b.core.negation c).result = (b.negation c).result := by
  simp only [negation, partsWithout_core]
  rcases b.partsWithout ["not"] with _ | ⟨p, _ | ⟨q, ps⟩⟩ <;> simp

/-- The operator is the name of a kind. -/
theorem result_unary_core : (b.core.unary c).result = (b.unary c).result := by
  simp only [unary, parts_core]
  rcases b.parts with _ | ⟨o, _ | ⟨p, _ | ⟨q, ps⟩⟩⟩
  · rfl
  · rfl
  · simp only [List.map_cons, List.map_nil, Part.kind_core]
    cases UnaryOp.ofSpelling? o.kind.name with
    | none => rfl
    | some op => simp
  · rfl

theorem result_conditional_core :
    (b.core.conditional c).result = (b.conditional c).result := by
  simp only [conditional, partsWithout_core]
  rcases b.partsWithout ["if", "else"] with _ | ⟨x, _ | ⟨t, _ | ⟨y, _ | ⟨q, ps⟩⟩⟩⟩ <;> simp

theorem result_parenthesized_core :
    (b.core.parenthesized c).result = (b.parenthesized c).result := by
  simp only [parenthesized, partsWithout_core]
  rcases b.partsWithout ["(", ")"] with _ | ⟨p, _ | ⟨q, ps⟩⟩ <;> simp

/-- Whether a literal is formatted is read off its text. -/
theorem string_core (h : b.kind = .string) : b.core.string = b.string := by
  simp [string, h, Kind.bearsText]

/-! ## The roles of an expression -/

/-- **No value looks past the core.** The rule is chosen by the kind, and a
text is read only of kinds whose text is in the core. -/
@[simp] theorem result_expression_core :
    (b.core.expression c).result = (b.expression c).result := by
  unfold expression
  rw [kind_core]
  split
  · rename_i hk
    rw [reference_core b hk]
  · exact b.result_memberAccess_core c
  · exact b.result_call_core c
  · exact b.result_subscript_core c
  · exact b.result_binary_core c
  · exact b.result_binary_core c
  · exact b.result_chain_core c
  · exact b.result_negation_core c
  · exact b.result_unary_core c
  · exact b.result_conditional_core c
  · exact b.result_parenthesized_core c
  · exact b.result_lambda_core c
  · rename_i hk
    rw [string_core b hk]
  · rename_i hk
    rw [text_core b (congrArg Kind.bearsText hk), loc_core]
  · rename_i hk
    rw [text_core b (congrArg Kind.bearsText hk), loc_core]
  · rfl
  · rfl
  · rfl
  · exact b.result_elements_core c .list
  · exact b.result_elements_core c .tuple
  · exact b.result_elements_core c .tuple
  · exact b.result_dictionary_core c
  · rfl

/-- **No argument looks past the core.** -/
@[simp] theorem result_argument_core : (b.core.argument c).result = (b.argument c).result := by
  unfold argument
  rw [kind_core]
  split
  · exact b.result_keywordArgument_core c
  · exact b.result_splat_core c
  · exact b.result_splat_core c
  · exact b.result_expression_core c

/-- **No element looks past the core.** -/
@[simp] theorem result_element_core : (b.core.element c).result = (b.element c).result := by
  unfold element
  rw [kind_core]
  split
  · exact b.result_splat_core c
  · exact b.result_expression_core c

/-- **No target looks past the core.** -/
@[simp] theorem result_target_core : (b.core.target c).result = (b.target c).result := by
  unfold target
  rw [kind_core]
  split
  · rename_i hk
    rw [reference_core b hk]
  · exact b.result_memberAccess_core c
  · exact b.result_subscript_core c
  · exact b.result_targets_core c .pattern
  · exact b.result_targets_core c .tuple
  · exact b.result_targets_core c .list
  · exact b.result_starredReference_core c
  · rfl

end Branch

end Scribe
