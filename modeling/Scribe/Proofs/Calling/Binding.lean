import Mathlib.Data.List.Nodup
import Scribe.Proofs.Emit.Nesting

/-!
# The calling convention

A definition takes its parameters with a default together, in one object
that it takes apart by key; a call passes its named arguments together,
in one object behind the others. A call does not know what it calls, so
the two fit together only if names are used for the parameters with a
default and positions for the others.

This module has both bindings. `bindSource` is what the source gives to
the parameters of a call that it accepts. `bindOutput` is what the output
gives, from the written lists as data (`outputParameters` and
`outputArguments`). `agrees_iff_followsConvention` says for which calls
the two bindings are the same. That the data is what the emitter writes
is proved in `Scribe.Proofs.Calling.Written`.
-/

namespace Scribe

/-! ## Calls in the source -/

/-- A parameter without a star. -/
def Expr.isPlainParameter : Expr → Bool
  | .reference _ none _ => true
  | .defaultParameter .. => true
  | .typedParameter _ _ none _ => true
  | .typedDefaultParameter .. => true
  | _ => false

/-- The default of a parameter. -/
def Expr.default? : Expr → Option Expr
  | .defaultParameter _ value _ => some value
  | .typedDefaultParameter _ _ value _ => some value
  | _ => none

/-- The name and the value of an argument that is passed by name. -/
def Expr.named? : Expr → Option (String × Expr)
  | .keywordArgument name value _ => some (name, value)
  | _ => none

/-- An argument that is passed by position; a starred one is none. -/
def Expr.isPositional : Expr → Bool
  | .keywordArgument .. => false
  | .reference _ (some _) _ => false
  | _ => true

/-- What a parameter receives from a call. -/
inductive Received where
  /-- An argument. -/
  | argument (e : Expr)
  /-- Its default. -/
  | fallback (e : Expr)
  /-- The object of the named arguments as a whole. -/
  | object (entries : List (String × Expr))
  /-- A property of an argument that is passed by position. -/
  | property (owner : Expr) (key : String)
  /-- Nothing. -/
  | nothing

/-- What a parameter receives that no position reaches. -/
def Expr.receiveNamed (named : List (String × Expr)) (p : Expr) : Received :=
  match p.parameterName?.bind (named.lookup ·), p.default? with
  | some e, _ => .argument e
  | none, some d => .fallback d
  | none, none => .nothing

/-- **The binding of the source**: positions first, then names, then
defaults. -/
def bindSource (named : List (String × Expr)) : List Expr → List Expr → List (Expr × Received)
  | p :: ps, a :: as => (p, .argument a) :: bindSource named ps as
  | ps, [] => ps.map fun p => (p, p.receiveNamed named)
  | [], _ => []

/-- **The source accepts the call**: no position is left over, no name is
used twice, every name is that of a parameter that no position reaches,
and every parameter without a default is reached. -/
structure Accepts (parameters positional : List Expr) (named : List (String × Expr)) : Prop where
  length_le : positional.length ≤ parameters.length
  nodup : (named.map (·.1)).Nodup
  known : ∀ n ∈ named.map (·.1),
    n ∈ (parameters.drop positional.length).filterMap Expr.parameterName?
  complete : ∀ p ∈ parameters.drop positional.length,
    p.default?.isSome = true ∨ ∃ n ∈ named.map (·.1), p.parameterName? = some n

/-! ## Calls in the output -/

/-- An entry of the pattern that takes an object apart. -/
structure OutputEntry where
  key : String
  bound : String
  value : Expr

/-- A parameter of the output: a name, with its type as spelled in the
source, or a pattern that takes an object apart. -/
inductive OutputParameter where
  | single (bound : String) (type : Option String)
  | object (entries : List OutputEntry)

/-- An argument of the output: a value or an object. -/
inductive OutputArgument where
  | value (e : Expr)
  | object (entries : List (String × Expr))

/-- What an entry of a pattern receives from the object; the last value
of a key counts. -/
def OutputEntry.receive (e : OutputEntry) : Option OutputArgument → Received
  | none => .fallback e.value
  | some (.value owner) => .property owner e.key
  | some (.object entries) =>
    match entries.reverse.lookup e.key with
    | some x => .argument x
    | none => .fallback e.value

namespace OutputParameter

/-- A parameter called `this` declares what a function is called on and
takes no argument. -/
def takesArgument : OutputParameter → Bool
  | single bound _ => bound != "this"
  | object _ => true

/-- The names that a parameter binds, with what they receive. -/
def receive : OutputParameter → Option OutputArgument → List (String × Received)
  | single bound _, none => [(bound, .nothing)]
  | single bound _, some (.value e) => [(bound, .argument e)]
  | single bound _, some (.object entries) => [(bound, .object entries)]
  | object entries, a => entries.map fun e => (e.bound, e.receive a)

end OutputParameter

/-- **The binding of the output**: by position, and by key in a pattern. -/
def bindOutput : List OutputParameter → List OutputArgument → List (String × Received)
  | [], _ => []
  | p :: ps, as =>
    if p.takesArgument then p.receive as.head? ++ bindOutput ps as.tail
    else p.receive none ++ bindOutput ps as

/-- The parameter of the output for one without a default. -/
def Expr.single? (receiver : Option String) : Expr → Option OutputParameter
  | .reference name none _ =>
    some (.single (if receiver = some name then "this" else Identifier.camel name) none)
  | .typedParameter name type none _ => some (.single (Identifier.camel name) (some type))
  | _ => none

/-- The entry of the pattern for a parameter with a default. -/
def Expr.entry? : Expr → Option OutputEntry
  | .defaultParameter name value _ =>
    some ⟨Identifier.property name, Identifier.camel name, value⟩
  | .typedDefaultParameter name _ value _ =>
    some ⟨Identifier.property name, Identifier.camel name, value⟩
  | _ => none

/-- The parameters of the output, as data. -/
def outputParameters (receiver : Option String) (parameters : List Expr) : List OutputParameter :=
  parameters.filterMap (Expr.single? receiver)
    ++ match parameters.filterMap Expr.entry? with
      | [] => []
      | entries => [.object entries]

/-- The object of the named arguments, if there are any. -/
def namedObject : List (String × Expr) → List OutputArgument
  | [] => []
  | named => [.object (named.map fun x => (Identifier.property x.1, x.2))]

/-- The arguments of the output, as data. -/
def outputArguments (positional : List Expr) (named : List (String × Expr)) :
    List OutputArgument :=
  positional.map .value ++ namedObject named

/-- **The bindings agree**: every parameter receives in the output, under
its own name, what it receives in the source. -/
def Agrees (receiver : Option String) (parameters positional : List Expr)
    (named : List (String × Expr)) : Prop :=
  ∀ x ∈ bindSource named parameters positional, ∀ n ∈ x.1.parameterName?,
    (bindOutput (outputParameters receiver parameters)
      (outputArguments positional named)).lookup (Identifier.camel n) = some x.2

/-- **The call follows the convention**: positions reach parameters
without a default, names those with one, and no parameter without a
default is written `this`. -/
structure FollowsConvention (receiver : Option String) (parameters positional : List Expr)
    (named : List (String × Expr)) : Prop where
  positions : ∀ p ∈ parameters.take positional.length, p.default?.isNone = true
  names : ∀ p ∈ parameters, ∀ n ∈ named.map (·.1), p.parameterName? = some n →
    p.default?.isSome = true
  receivers : ∀ p ∈ parameters, ∀ q ∈ p.single? receiver, q.takesArgument = true

/-! ## Names -/

section Lookup

variable {α β : Type} [BEq α] [LawfulBEq α] {l : List (α × β)} {k : α} {v : β}

theorem mem_of_lookup_eq_some (h : l.lookup k = some v) : (k, v) ∈ l := by
  obtain ⟨before, after, rfl, _⟩ := List.lookup_eq_some_iff.1 h
  simp

/-- With distinct keys a look-up finds every entry. -/
theorem lookup_eq_some_of_mem (hl : (l.map (·.1)).Nodup) (h : (k, v) ∈ l) :
    l.lookup k = some v := by
  induction l with
  | nil => cases h
  | cons e l ih =>
    obtain ⟨k', v'⟩ := e
    obtain ⟨hnew, hl⟩ := List.nodup_cons.1 hl
    rcases List.mem_cons.1 h with heq | h
    · obtain ⟨rfl, rfl⟩ := Prod.mk.inj heq
      simp
    · have hne : k ≠ k' := fun hk => hnew (List.mem_map.2 ⟨_, h, hk⟩)
      rw [List.lookup_cons, beq_false_of_ne hne]
      exact ih hl h

end Lookup

theorem camel_eq_of_property_eq {a b : String} (h : Identifier.property a = Identifier.property b) :
    Identifier.camel a = Identifier.camel b := by
  rw [Identifier.camel, Identifier.camel, h]

theorem camel_ne_this (n : String) : Identifier.camel n ≠ "this" := by
  intro h
  simp only [Identifier.camel] at h
  split at h
  · have hlast := congrArg (fun t => t.toList.getLast?) h
    simp at hlast
  · rename_i hfree
    rw [h] at hfree
    exact hfree (by decide)

/-- The name that a parameter has in the output. -/
def Expr.writtenName (p : Expr) : String :=
  Identifier.camel (p.parameterName?.getD "")

theorem Expr.writtenName_eq {p : Expr} {n : String} (h : p.parameterName? = some n) :
    p.writtenName = Identifier.camel n := by
  rw [writtenName, h, Option.getD_some]

/-- **The two shapes of a parameter without a star.** Without a default it
is a parameter of its own in the output, with one it is an entry of the
pattern. -/
theorem plainParameter_cases {p : Expr} (receiver : Option String)
    (h : p.isPlainParameter = true) :
    ∃ n, p.parameterName? = some n ∧
      ((p.default? = none ∧ p.entry? = none ∧ ∃ bound type,
        p.single? receiver = some (.single bound type) ∧
          (bound = "this" ∨ bound = Identifier.camel n)) ∨
      (∃ d, p.default? = some d ∧ p.single? receiver = none ∧
        p.entry? = some ⟨Identifier.property n, Identifier.camel n, d⟩)) := by
  cases p with
  | reference name splat loc =>
    cases splat with
    | some _ => cases h
    | none =>
      refine ⟨name, rfl, .inl ⟨rfl, rfl, _, none, rfl, ?_⟩⟩
      split
      · exact .inl rfl
      · exact .inr rfl
  | defaultParameter name value loc => exact ⟨name, rfl, .inr ⟨value, rfl, rfl, rfl⟩⟩
  | typedParameter name type splat loc =>
    cases splat with
    | some _ => cases h
    | none => exact ⟨name, rfl, .inl ⟨rfl, rfl, _, some type, rfl, .inr rfl⟩⟩
  | typedDefaultParameter name type value loc => exact ⟨name, rfl, .inr ⟨value, rfl, rfl, rfl⟩⟩
  | _ => cases h

theorem boundNames_eq_map {ps : List Expr} (h : ∀ p ∈ ps, p.isPlainParameter = true) :
    boundNames ps = ps.map Expr.writtenName := by
  induction ps with
  | nil => rfl
  | cons p ps ih =>
    obtain ⟨n, hn, _⟩ := plainParameter_cases none (h p (List.mem_cons_self ..))
    have hps := ih fun q hq => h q (List.mem_cons_of_mem _ hq)
    rw [boundNames] at hps ⊢
    rw [List.filterMap_cons_some hn, List.map_cons, List.map_cons, hps, Expr.writtenName_eq hn]

/-! ## Both bindings, position by position -/

variable {receiver : Option String} {pre suf positional : List Expr}
  {named : List (String × Expr)}

theorem bindSource_append (h : pre.length = positional.length) :
    bindSource named (pre ++ suf) positional =
      (pre.zip positional).map (fun x => (x.1, .argument x.2))
        ++ suf.map fun p => (p, p.receiveNamed named) := by
  induction pre generalizing positional with
  | nil =>
    obtain rfl := List.length_eq_zero_iff.1 h.symm
    simp [bindSource]
  | cons p pre ih =>
    cases positional with
    | nil => cases h
    | cons a positional =>
      rw [List.cons_append, bindSource, ih (Nat.succ.inj h)]
      rfl

/-- **Positions that reach parameters without a default** reach the same
ones in the output. -/
theorem bindOutput_append {args : List OutputArgument} (h : pre.length = positional.length)
    (hpre : ∀ p ∈ pre, p.isPlainParameter = true ∧ p.default?.isNone = true ∧
      ∀ q ∈ p.single? receiver, q.takesArgument = true) :
    bindOutput (outputParameters receiver (pre ++ suf)) (positional.map .value ++ args) =
      (pre.zip positional).map (fun x => (x.1.writtenName, .argument x.2))
        ++ bindOutput (outputParameters receiver suf) args := by
  induction pre generalizing positional with
  | nil =>
    obtain rfl := List.length_eq_zero_iff.1 h.symm
    rfl
  | cons p pre ih =>
    cases positional with
    | nil => cases h
    | cons a positional =>
      obtain ⟨hplain, hnone, htakes⟩ := hpre p (List.mem_cons_self ..)
      obtain ⟨n, hn, ⟨-, hentry, bound, type, hsingle, hbound⟩ | ⟨d, hd, -⟩⟩ :=
        plainParameter_cases receiver hplain
      · have hparams : outputParameters receiver (p :: pre ++ suf) =
            .single bound type :: outputParameters receiver (pre ++ suf) := by
          simp [outputParameters, hsingle, hentry]
        have htake := htakes _ hsingle
        -- what takes an argument is not written `this`, so it has its own name
        have hname : bound = p.writtenName := by
          rcases hbound with rfl | hcamel
          · cases htake
          · rw [Expr.writtenName_eq hn, hcamel]
        rw [hparams, bindOutput, if_pos htake, List.map_cons, List.cons_append, List.head?_cons,
          List.tail_cons, ih (Nat.succ.inj h) fun q hq => hpre q (List.mem_cons_of_mem _ hq),
          hname]
        rfl
      · rw [hd] at hnone
        cases hnone

/-- **Parameters with a default** are entries of one pattern, and that
receives the first argument. -/
theorem bindOutput_defaults {args : List OutputArgument}
    (hsuf : ∀ p ∈ suf, p.isPlainParameter = true ∧ p.default?.isSome = true) :
    bindOutput (outputParameters receiver suf) args =
      (suf.filterMap Expr.entry?).map fun e => (e.bound, e.receive args.head?) := by
  have hsingle : suf.filterMap (Expr.single? receiver) = [] := by
    refine List.filterMap_eq_nil_iff.2 fun p hp => ?_
    obtain ⟨hplain, hsome⟩ := hsuf p hp
    obtain ⟨n, hn, ⟨hnone, -⟩ | ⟨d, -, hsingle, -⟩⟩ := plainParameter_cases receiver hplain
    · rw [hnone] at hsome
      cases hsome
    · exact hsingle
  rw [outputParameters, hsingle, List.nil_append]
  cases hentries : suf.filterMap Expr.entry? with
  | nil => rfl
  | cons e es => simp [bindOutput, OutputParameter.takesArgument, OutputParameter.receive]

/-- A pattern finds an argument in an object only, under the key of the
entry. -/
theorem OutputEntry.receive_eq_argument {e : OutputEntry} {a : Option OutputArgument} {x : Expr}
    (h : e.receive a = .argument x) :
    ∃ entries, a = some (.object entries) ∧ (e.key, x) ∈ entries := by
  unfold OutputEntry.receive at h
  split at h
  · cases h
  · cases h
  · rename_i entries
    split at h
    · rename_i y hy
      obtain rfl := Received.argument.inj h
      exact ⟨entries, rfl, List.mem_reverse.1 (mem_of_lookup_eq_some hy)⟩
    · cases h

theorem mem_namedObject {a : OutputArgument} (h : a ∈ namedObject named) :
    a = .object (named.map fun x => (Identifier.property x.1, x.2)) := by
  cases named with
  | nil => cases h
  | cons x named => exact List.mem_singleton.1 h

theorem exists_of_single? {p : Expr} {q : OutputParameter} (h : p.single? receiver = some q) :
    ∃ bound type, q = .single bound type := by
  unfold Expr.single? at h
  split at h
  · exact ⟨_, _, (Option.some.inj h).symm⟩
  · exact ⟨_, _, (Option.some.inj h).symm⟩
  · cases h

theorem exists_of_mem_bindOutput {ps : List OutputParameter} {args : List OutputArgument}
    {b : String × Received} (h : b ∈ bindOutput ps args) :
    ∃ q ∈ ps, ∃ a : Option OutputArgument, (∀ x ∈ a, x ∈ args) ∧ b ∈ q.receive a := by
  induction ps generalizing args with
  | nil => cases h
  | cons q ps ih =>
    rw [bindOutput] at h
    split at h
    · rcases List.mem_append.1 h with h | h
      · exact ⟨q, List.mem_cons_self .., args.head?, fun x hx => List.mem_of_head? hx, h⟩
      · obtain ⟨q', hq', a, ha, hb⟩ := ih h
        exact ⟨q', List.mem_cons_of_mem _ hq', a, fun x hx => List.mem_of_mem_tail (ha x hx), hb⟩
    · rcases List.mem_append.1 h with h | h
      · exact ⟨q, List.mem_cons_self .., none, nofun, h⟩
      · obtain ⟨q', hq', a, ha, hb⟩ := ih h
        exact ⟨q', List.mem_cons_of_mem _ hq', a, ha, hb⟩

/-- **Where a name of the output comes from**: a parameter of its own, or
an entry of the pattern. -/
theorem origin_of_mem_bindOutput {ps : List Expr} {args : List OutputArgument}
    {b : String} {r : Received} (h : (b, r) ∈ bindOutput (outputParameters receiver ps) args) :
    ∃ p ∈ ps, ∃ a : Option OutputArgument, (∀ x ∈ a, x ∈ args) ∧
      ((∃ type, p.single? receiver = some (.single b type) ∧
        (b, r) ∈ (OutputParameter.single b type).receive a) ∨
      ∃ e, p.entry? = some e ∧ b = e.bound ∧ r = e.receive a) := by
  obtain ⟨q, hq, a, ha, hb⟩ := exists_of_mem_bindOutput h
  rcases List.mem_append.1 hq with hq | hq
  · obtain ⟨p, hp, hpq⟩ := List.mem_filterMap.1 hq
    obtain ⟨bound, type, rfl⟩ := exists_of_single? hpq
    -- whatever it receives, a parameter of its own binds its own name
    have hbound : b = bound := by
      rcases a with _ | _ | _
      all_goals exact congrArg Prod.fst (List.mem_singleton.1 hb)
    subst hbound
    exact ⟨p, hp, a, ha, .inl ⟨type, hpq, hb⟩⟩
  · split at hq
    · cases hq
    · obtain rfl := List.mem_singleton.1 hq
      obtain ⟨e, he, heq⟩ := List.mem_map.1 hb
      obtain ⟨p, hp, hpe⟩ := List.mem_filterMap.1 he
      obtain ⟨rfl, rfl⟩ := Prod.mk.inj heq
      exact ⟨p, hp, a, ha, .inr ⟨e, hpe, rfl, rfl⟩⟩

/-- **What a name of the output says about its parameter.** -/
theorem origin_of_name {ps : List Expr} {args : List OutputArgument} {p : Expr} {n : String}
    {r : Received} (hps : ∀ p ∈ ps, p.isPlainParameter = true)
    (hnodup : (ps.map Expr.writtenName).Nodup) (hp : p ∈ ps) (hn : p.parameterName? = some n)
    (h : (Identifier.camel n, r) ∈ bindOutput (outputParameters receiver ps) args) :
    ∃ a : Option OutputArgument, (∀ x ∈ a, x ∈ args) ∧
      ((∃ type, p.single? receiver = some (.single (Identifier.camel n) type) ∧
        (Identifier.camel n, r) ∈ (OutputParameter.single (Identifier.camel n) type).receive a) ∨
      ∃ e, p.entry? = some e ∧ r = e.receive a) := by
  obtain ⟨q, hq, a, ha, horigin⟩ := origin_of_mem_bindOutput h
  obtain ⟨m, hm, hcases⟩ := plainParameter_cases receiver (hps q hq)
  -- written names are distinct, so the name tells the parameter
  have hqp : Identifier.camel m = Identifier.camel n → q = p := by
    intro hmn
    refine List.inj_on_of_nodup_map hnodup hq hp ?_
    rw [Expr.writtenName_eq hm, Expr.writtenName_eq hn, hmn]
  rcases horigin with ⟨type, hsingle, hr⟩ | ⟨e, hentry, hbound, hr⟩
  · obtain ⟨-, -, bound, type', hsingle', hbound⟩ | ⟨d, -, hnone, -⟩ := hcases
    · rw [hsingle] at hsingle'
      have hname : Identifier.camel n = bound :=
        (OutputParameter.single.inj (Option.some.inj hsingle')).1
      rw [← hname] at hbound
      rcases hbound with hthis | hmn
      · exact absurd hthis (camel_ne_this n)
      · obtain rfl := hqp hmn.symm
        exact ⟨a, ha, .inl ⟨type, hsingle, hr⟩⟩
    · rw [hnone] at hsingle
      cases hsingle
  · obtain ⟨-, hnone, -⟩ | ⟨d, -, -, hentry'⟩ := hcases
    · rw [hnone] at hentry
      cases hentry
    · obtain rfl := Option.some.inj (hentry'.symm.trans hentry)
      dsimp only at hbound
      obtain rfl := hqp hbound.symm
      exact ⟨a, ha, .inr ⟨_, hentry, hr⟩⟩

/-! ## Names in a call that is accepted -/

section Accepted

variable {ps : List Expr} (hnodup : (ps.map Expr.writtenName).Nodup)

include hnodup

/-- Parameters with one key are one parameter. -/
theorem eq_of_property_eq {p q : Expr} {n k : String} (hp : p ∈ ps) (hq : q ∈ ps)
    (hn : p.parameterName? = some n) (hk : q.parameterName? = some k)
    (h : Identifier.property k = Identifier.property n) : q = p := by
  refine List.inj_on_of_nodup_map hnodup hq hp ?_
  rw [Expr.writtenName_eq hn, Expr.writtenName_eq hk, camel_eq_of_property_eq h]

/-- **Keys are as good as names**: in the object a parameter finds the
value that was passed under its name. -/
theorem lookup_property {p : Expr} {n : String}
    (hknown : ∀ k ∈ named.map (·.1), k ∈ ps.filterMap Expr.parameterName?)
    (hdistinct : (named.map (·.1)).Nodup) (hp : p ∈ ps) (hn : p.parameterName? = some n) :
    (named.map fun x => (Identifier.property x.1, x.2)).reverse.lookup (Identifier.property n)
      = named.lookup n := by
  -- two names with one key would be names of one parameter
  have hname : ∀ k ∈ named.map (·.1), ∀ m, m ∈ ps.filterMap Expr.parameterName? →
      Identifier.property k = Identifier.property m → k = m := by
    intro k hk m hm hkm
    obtain ⟨q, hq, hqk⟩ := List.mem_filterMap.1 (hknown k hk)
    obtain ⟨q', hq', hqm⟩ := List.mem_filterMap.1 hm
    obtain rfl := eq_of_property_eq hnodup hq' hq hqm hqk hkm
    exact Option.some.inj (hqk.symm.trans hqm)
  have hkeys : ((named.map fun x => (Identifier.property x.1, x.2)).reverse.map (·.1)).Nodup := by
    have heq : (named.map fun x => (Identifier.property x.1, x.2)).map (·.1)
        = (named.map (·.1)).map Identifier.property := by
      simp
    rw [List.map_reverse, List.nodup_reverse, heq]
    exact hdistinct.map_on fun k hk m hm => hname k hk m (hknown m hm)
  cases hlook : named.lookup n with
  | some e =>
    refine lookup_eq_some_of_mem hkeys (List.mem_reverse.2 ?_)
    exact List.mem_map.2 ⟨(n, e), mem_of_lookup_eq_some hlook, rfl⟩
  | none =>
    cases hlook' : (named.map fun x => (Identifier.property x.1, x.2)).reverse.lookup
        (Identifier.property n) with
    | none => rfl
    | some e =>
      obtain ⟨⟨k, v⟩, hmem, heq⟩ :=
        List.mem_map.1 (List.mem_reverse.1 (mem_of_lookup_eq_some hlook'))
      obtain ⟨hkey, rfl⟩ := Prod.mk.inj heq
      have hkn := hname k (List.mem_map_of_mem hmem) n (List.mem_filterMap.2 ⟨p, hp, hn⟩) hkey
      rw [lookup_eq_some_of_mem hdistinct (hkn ▸ hmem)] at hlook
      cases hlook

end Accepted

/-! ## When the bindings agree -/

/-- A parameter with a default receives by key what it receives by
name. -/
theorem receive_namedObject {p : Expr} {n : String} {d : Expr} {ps : List Expr}
    (hnodup : (ps.map Expr.writtenName).Nodup)
    (hknown : ∀ k ∈ named.map (·.1), k ∈ ps.filterMap Expr.parameterName?)
    (hdistinct : (named.map (·.1)).Nodup) (hp : p ∈ ps) (hn : p.parameterName? = some n)
    (hd : p.default? = some d) :
    OutputEntry.receive ⟨Identifier.property n, Identifier.camel n, d⟩ (namedObject named).head?
      = p.receiveNamed named := by
  rw [Expr.receiveNamed, hn, hd, Option.bind_some]
  cases named with
  | nil => rfl
  | cons x named =>
    have hlook := lookup_property hnodup hknown hdistinct hp hn
    rw [namedObject, List.head?_cons, OutputEntry.receive, hlook]
    · cases (x :: named).lookup n <;> rfl
    · nofun

theorem map_bound_entries
    (hsuf : ∀ p ∈ suf, p.isPlainParameter = true ∧ p.default?.isSome = true) :
    (suf.filterMap Expr.entry?).map (·.bound) = suf.map Expr.writtenName := by
  induction suf with
  | nil => rfl
  | cons p suf ih =>
    obtain ⟨hplain, hsome⟩ := hsuf p (List.mem_cons_self ..)
    obtain ⟨n, hn, ⟨hnone, -⟩ | ⟨d, -, -, hentry⟩⟩ := plainParameter_cases none hplain
    · rw [hnone] at hsome
      cases hsome
    · rw [List.filterMap_cons_some hentry, List.map_cons, List.map_cons,
        ih fun q hq => hsuf q (List.mem_cons_of_mem _ hq), Expr.writtenName_eq hn]

/-- **An accepted call, cut where its positions end**: the positions reach
the parameters in `pre`, and those in `suf` are left to names and
defaults. -/
structure SplitCall (pre suf positional : List Expr) (named : List (String × Expr)) : Prop where
  length_eq : pre.length = positional.length
  plain : ∀ p ∈ pre ++ suf, p.isPlainParameter = true
  nodup : ((pre ++ suf).map Expr.writtenName).Nodup
  distinct : (named.map (·.1)).Nodup
  known : ∀ k ∈ named.map (·.1), k ∈ suf.filterMap Expr.parameterName?
  complete : ∀ p ∈ suf, p.default?.isSome = true ∨
    ∃ n ∈ named.map (·.1), p.parameterName? = some n

namespace SplitCall

variable (h : SplitCall pre suf positional named)

include h

/-- Positions for the parameters without a default and names for the
others: then the bindings agree. -/
theorem agrees
    (hpre : ∀ p ∈ pre, p.isPlainParameter = true ∧ p.default?.isNone = true ∧
      ∀ q ∈ p.single? receiver, q.takesArgument = true)
    (hsuf : ∀ p ∈ suf, p.isPlainParameter = true ∧ p.default?.isSome = true) :
    Agrees receiver (pre ++ suf) positional named := by
  intro x hx n hn
  rw [bindSource_append h.length_eq] at hx
  rw [outputArguments, bindOutput_append h.length_eq hpre, bindOutput_defaults hsuf]
  -- the output binds the names of all parameters, in their order
  have hkeys : (((pre.zip positional).map fun x => (x.1.writtenName, Received.argument x.2))
      ++ (suf.filterMap Expr.entry?).map fun e =>
        (e.bound, e.receive (namedObject named).head?)).map (·.1)
      = (pre ++ suf).map Expr.writtenName := by
    have hpos : (pre.zip positional).map (fun x => x.1.writtenName) = pre.map Expr.writtenName := by
      conv_rhs => rw [← List.map_fst_zip (Nat.le_of_eq h.length_eq), List.map_map]
      simp only [Function.comp_def]
    simp only [List.map_append, List.map_map, Function.comp_def, hpos, ← map_bound_entries hsuf]
  refine lookup_eq_some_of_mem (hkeys ▸ h.nodup) (List.mem_append.2 ?_)
  rcases List.mem_append.1 hx with hx | hx
  · obtain ⟨⟨p, a⟩, hpa, rfl⟩ := List.mem_map.1 hx
    exact .inl (List.mem_map.2 ⟨(p, a), hpa, by rw [Expr.writtenName_eq hn]⟩)
  · obtain ⟨p, hp, rfl⟩ := List.mem_map.1 hx
    obtain ⟨hplain, hsome⟩ := hsuf p hp
    obtain ⟨m, hm, ⟨hnone, -⟩ | ⟨d, hd, -, hentry⟩⟩ := plainParameter_cases none hplain
    · rw [hnone] at hsome
      cases hsome
    · obtain rfl := Option.some.inj (hm.symm.trans hn)
      refine .inr (List.mem_map.2 ⟨_, List.mem_filterMap.2 ⟨p, hp, hentry⟩, ?_⟩)
      rw [receive_namedObject h.nodup _ h.distinct (List.mem_append_right _ hp) hm hd]
      intro k hk
      rw [List.filterMap_append]
      exact List.mem_append_right _ (h.known k hk)

theorem not_mem_pre {p : Expr} (hp : p ∈ suf) : p ∉ pre := by
  intro hpre
  have hnodup := h.nodup
  rw [List.map_append] at hnodup
  exact List.disjoint_of_nodup_append hnodup (List.mem_map_of_mem hpre) (List.mem_map_of_mem hp)

/-- A name that is passed is that of a parameter behind the positions. -/
theorem mem_suf_of_passed {p : Expr} {n k : String} (hp : p ∈ pre ++ suf)
    (hn : p.parameterName? = some n) (hk : k ∈ named.map (·.1))
    (hkn : Identifier.property k = Identifier.property n) : p ∈ suf := by
  obtain ⟨q, hq, hqk⟩ := List.mem_filterMap.1 (h.known k hk)
  obtain rfl := eq_of_property_eq h.nodup hp (List.mem_append_right _ hq) hn hqk hkn
  exact hq

/-! What agreement says about each parameter: its name is bound in the
output, and not by accident. -/

variable (hagree : Agrees receiver (pre ++ suf) positional named)

include hagree

theorem exists_argument {p : Expr} {n : String} (hp : p ∈ pre) (hn : p.parameterName? = some n) :
    ∃ a, (Identifier.camel n, .argument a) ∈
      bindOutput (outputParameters receiver (pre ++ suf)) (outputArguments positional named) := by
  obtain ⟨i, hi, rfl⟩ := List.getElem_of_mem hp
  have hi' : i < positional.length := h.length_eq ▸ hi
  have hzip : (pre[i], positional[i]) ∈ pre.zip positional := by
    have hlt : i < (pre.zip positional).length := by
      rw [List.length_zip]
      omega
    rw [← List.getElem_zip (h := hlt)]
    exact List.getElem_mem hlt
  have hsource : (pre[i], Received.argument (positional[i]))
      ∈ bindSource named (pre ++ suf) positional := by
    rw [bindSource_append h.length_eq]
    exact List.mem_append_left _ (List.mem_map_of_mem hzip)
  exact ⟨_, mem_of_lookup_eq_some (hagree _ hsource n hn)⟩

theorem mem_receiveNamed {p : Expr} {n : String} (hp : p ∈ suf)
    (hn : p.parameterName? = some n) : (Identifier.camel n, p.receiveNamed named) ∈
      bindOutput (outputParameters receiver (pre ++ suf)) (outputArguments positional named) := by
  have hsource : (p, p.receiveNamed named) ∈ bindSource named (pre ++ suf) positional := by
    rw [bindSource_append h.length_eq]
    exact List.mem_append_right _ (List.mem_map_of_mem hp)
  exact mem_of_lookup_eq_some (hagree _ hsource n hn)

/-- No parameter is written `this`. -/
theorem takesArgument {p : Expr} (hp : p ∈ pre ++ suf) :
    ∀ q ∈ p.single? receiver, q.takesArgument = true := by
  intro q hq
  obtain ⟨n, hn, hcases⟩ := plainParameter_cases receiver (h.plain p hp)
  obtain ⟨r, hr⟩ : ∃ r, (Identifier.camel n, r) ∈ bindOutput
      (outputParameters receiver (pre ++ suf)) (outputArguments positional named) := by
    rcases List.mem_append.1 hp with hp | hp
    · obtain ⟨a, ha⟩ := h.exists_argument hagree hp hn
      exact ⟨_, ha⟩
    · exact ⟨_, h.mem_receiveNamed hagree hp hn⟩
  obtain ⟨a, -, ⟨type, hsingle, -⟩ | ⟨e, hentry, -⟩⟩ := origin_of_name h.plain h.nodup hp hn hr
  · obtain rfl := Option.some.inj (hsingle.symm.trans hq)
    simpa [OutputParameter.takesArgument] using camel_ne_this n
  · obtain ⟨-, hnone, -⟩ | ⟨-, -, hnone, -⟩ := hcases
    · rw [hnone] at hentry
      cases hentry
    · rw [Option.mem_def, hnone] at hq
      cases hq

/-- Positions reach parameters without a default: a pattern finds an
argument under a name only, and the name of a parameter that a position
reaches is not passed. -/
theorem default?_isNone {p : Expr} (hp : p ∈ pre) : p.default?.isNone = true := by
  have hmem := List.mem_append_left suf hp
  obtain ⟨n, hn, ⟨hnone, -⟩ | ⟨d, -, hsingle, hentry⟩⟩ :=
    plainParameter_cases receiver (h.plain p hmem)
  · rw [hnone]
    rfl
  · exfalso
    obtain ⟨x, hx⟩ := h.exists_argument hagree hp hn
    obtain ⟨a, ha, ⟨type, hsingle', -⟩ | ⟨e, hentry', hreceive⟩⟩ :=
      origin_of_name h.plain h.nodup hmem hn hx
    · rw [hsingle] at hsingle'
      cases hsingle'
    · obtain rfl := Option.some.inj (hentry.symm.trans hentry')
      -- the argument comes out of the object, so its key was passed by name
      obtain ⟨entries, rfl, hentries⟩ := OutputEntry.receive_eq_argument hreceive.symm
      rcases List.mem_append.1 (ha _ rfl) with hvalue | hobject
      · obtain ⟨_, _, heq⟩ := List.mem_map.1 hvalue
        cases heq
      · obtain rfl := OutputArgument.object.inj (mem_namedObject hobject)
        obtain ⟨⟨k, v⟩, hkv, heq⟩ := List.mem_map.1 hentries
        have hsuf := h.mem_suf_of_passed hmem hn (List.mem_map_of_mem hkv) (Prod.mk.inj heq).1
        exact h.not_mem_pre hsuf hp

/-- Names are those of parameters with a default: behind the positions
there is no argument left for one without. -/
theorem default?_isSome {p : Expr} {n : String} (hp : p ∈ pre ++ suf)
    (hn : p.parameterName? = some n) (hpassed : n ∈ named.map (·.1)) :
    p.default?.isSome = true := by
  have hsuf := h.mem_suf_of_passed hp hn hpassed rfl
  obtain ⟨m, hm, ⟨hnone, hentry, -⟩ | ⟨d, hd, -⟩⟩ := plainParameter_cases receiver (h.plain p hp)
  · exfalso
    obtain rfl := Option.some.inj (hm.symm.trans hn)
    obtain ⟨⟨k, v⟩, hkv, rfl⟩ := List.mem_map.1 hpassed
    have hreceive : p.receiveNamed named = .argument v := by
      rw [Expr.receiveNamed, hm, Option.bind_some, lookup_eq_some_of_mem h.distinct hkv]
    have hmem := h.mem_receiveNamed hagree hsuf hm
    rw [hreceive, outputArguments, bindOutput_append h.length_eq fun q hq =>
      ⟨h.plain q (List.mem_append_left _ hq), h.default?_isNone hagree hq,
        h.takesArgument hagree (List.mem_append_left _ hq)⟩] at hmem
    -- the positions in front bind other names, and behind them only the object is left
    rcases List.mem_append.1 hmem with hmem | hmem
    · obtain ⟨⟨q, a⟩, hqa, heq⟩ := List.mem_map.1 hmem
      have hq := (List.of_mem_zip hqa).1
      have hqp : q = p := List.inj_on_of_nodup_map h.nodup (List.mem_append_left _ hq) hp <| by
        rw [Expr.writtenName_eq hm]
        exact (Prod.mk.inj heq).1
      exact h.not_mem_pre hsuf (hqp ▸ hq)
    · have hnodup := h.nodup
      rw [List.map_append] at hnodup
      obtain ⟨a, ha, ⟨type, -, hargument⟩ | ⟨e, hentry', -⟩⟩ := origin_of_name
        (fun q hq => h.plain q (List.mem_append_right _ hq)) hnodup.of_append_right hsuf hm hmem
      · cases a with
        | none => cases congrArg Prod.snd (List.mem_singleton.1 hargument)
        | some x =>
          obtain rfl := mem_namedObject (ha x rfl)
          cases congrArg Prod.snd (List.mem_singleton.1 hargument)
      · rw [hentry] at hentry'
        cases hentry'
  · rw [hd]
    rfl

end SplitCall

/-- **When definitions and calls agree.** A call that the source accepts
is bound the same way in the output if and only if it follows the
convention. -/
theorem agrees_iff_followsConvention {ps : List Expr}
    (hps : ∀ p ∈ ps, p.isPlainParameter = true) (hnodup : (boundNames ps).Nodup)
    (hacc : Accepts ps positional named) :
    Agrees receiver ps positional named ↔ FollowsConvention receiver ps positional named := by
  -- the parameters are cut where the arguments passed by position end
  obtain ⟨pre, suf, rfl, hlen⟩ : ∃ pre suf, ps = pre ++ suf ∧ pre.length = positional.length :=
    ⟨_, _, (List.take_append_drop positional.length ps).symm,
      List.length_take_of_le hacc.length_le⟩
  have hdrop : (pre ++ suf).drop positional.length = suf := List.drop_left' hlen
  have htake : (pre ++ suf).take positional.length = pre := List.take_left' hlen
  have hsplit : SplitCall pre suf positional named :=
    ⟨hlen, hps, boundNames_eq_map hps ▸ hnodup, hacc.nodup, hdrop ▸ hacc.known,
      hdrop ▸ hacc.complete⟩
  constructor
  · intro hagree
    refine ⟨fun p hp => ?_, fun p hp n hn hpn => ?_, fun p hp => ?_⟩
    · exact hsplit.default?_isNone hagree (htake ▸ hp)
    · exact hsplit.default?_isSome hagree hp hpn hn
    · exact hsplit.takesArgument hagree hp
  · intro h
    refine hsplit.agrees (fun p hp => ?_) fun p hp => ?_
    · have hmem := List.mem_append_left suf hp
      exact ⟨hps p hmem, h.positions p (htake.symm ▸ hp), h.receivers p hmem⟩
    · have hmem := List.mem_append_right pre hp
      refine ⟨hps p hmem, ?_⟩
      rcases hsplit.complete p hp with hsome | ⟨n, hn, hpn⟩
      · exact hsome
      · exact h.names p hmem n hn hpn

end Scribe
