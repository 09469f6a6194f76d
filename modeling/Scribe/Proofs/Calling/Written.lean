import Scribe.Proofs.Calling.Binding
import Scribe.Proofs.Emit.Signature

/-!
# Written calls

The parameter list of a definition and the argument list of a call are
texts. `OutputParameter.Writes` and `OutputArgument.Writes` say which
text a parameter or argument of the output has, and the lemmas below show
that what the emitter writes is the list of these texts, in order.

`call_binds_iff` is the result for a definition and a call that were
written: whether the call fits the definition.
-/

namespace Scribe

/-! ## The written lists -/

/-- An entry of a pattern with its written default. -/
def OutputEntry.text (e : OutputEntry) (value : String) : String :=
  (if e.key = e.bound then "" else e.key ++ ": ") ++ e.bound ++ " = " ++ value

/-- **The written form of a parameter.** A pattern has the type
`aliasName`, if there is one, and the empty object as its default. -/
def OutputParameter.Writes (s : Scope) (aliasName : Option String) :
    OutputParameter → String → Prop
  | .single bound none, t => t = bound
  | .single bound (some type), t => ∃ mapped, typeName type = .ok mapped ∧
      t = bound ++ ": " ++ mapped
  | .object entries, t => ∃ values,
      List.Forall₂ (fun e v => e.value.emit s = .ok v) entries values ∧
      t = "\x7b " ++ ", ".intercalate (List.zipWith OutputEntry.text entries values) ++ " \x7d"
        ++ (match aliasName with
          | some name => ": " ++ name
          | none => "")
        ++ " = \x7b\x7d"

/-- **The written form of an argument.** -/
def OutputArgument.Writes (s : Scope) : OutputArgument → String → Prop
  | .value e, t => e.emit s = .ok t
  | .object entries, t => ∃ values,
      List.Forall₂ (fun e v => e.2.emit s = .ok v) entries values ∧
      t = "\x7b "
        ++ ", ".intercalate (List.zipWith (fun e v => e.1 ++ ": " ++ v) entries values) ++ " \x7d"

/-- The slot of a parameter with a default has the text of its entry. -/
theorem OptionSlot.entry_eq_text (name value : String) (type : Option String) (d : Expr) :
    OptionSlot.entry ⟨Identifier.property name, Identifier.camel name,
      Identifier.camel name ++ " = " ++ value, type⟩ =
    OutputEntry.text ⟨Identifier.property name, Identifier.camel name, d⟩ value := by
  simp only [OptionSlot.entry, OutputEntry.text]
  split
  · simp [String.append_assoc]
  · simp [String.append_assoc]

/-- **One parameter.** Its slot has the text that the output's parameter
or entry has. -/
theorem writes_slot {s : Scope} {p : Expr} {t : String} {slot : Slot}
    (hp : p.isPlainParameter = true) (ht : p.emit s = .ok t)
    (hslot : Slot.ofParameter t p = .ok slot) (aliasName : Option String) :
    (∃ q, p.single? s.receiver = some q ∧ p.entry? = none ∧ slot = .positional t ∧
      q.Writes s aliasName t) ∨
    ∃ e v o, p.single? s.receiver = none ∧ p.entry? = some e ∧ slot = .option o ∧
      e.value.emit s = .ok v ∧ o.entry = e.text v := by
  cases p with
  | reference name splat loc =>
    cases splat with
    | some _ => cases hp
    | none =>
      obtain rfl := (Except.ok.inj hslot).symm
      simp only [Expr.emit] at ht
      exact .inl ⟨_, rfl, rfl, rfl, (Except.ok.inj ht).symm⟩
  | typedParameter name type splat loc =>
    cases splat with
    | some _ => cases hp
    | none =>
      obtain rfl := (Except.ok.inj hslot).symm
      simp only [Expr.emit, Result.bind_eq_ok, Result.pure_eq_ok] at ht
      obtain ⟨mapped, hmapped, rfl⟩ := ht
      exact .inl ⟨_, rfl, rfl, rfl, mapped, hmapped, rfl⟩
  | defaultParameter name value loc =>
    obtain rfl := (Except.ok.inj hslot).symm
    simp only [Expr.emit, Result.bind_eq_ok, Result.pure_eq_ok] at ht
    obtain ⟨v, hv, rfl⟩ := ht
    exact .inr ⟨_, v, _, rfl, rfl, rfl, hv, OptionSlot.entry_eq_text ..⟩
  | typedDefaultParameter name type value loc =>
    simp only [Slot.ofParameter, Result.bind_eq_ok, Result.pure_eq_ok] at hslot
    obtain ⟨mapped, hmapped, rfl⟩ := hslot
    simp only [Expr.emit, Result.bind_eq_ok, Result.pure_eq_ok] at ht
    obtain ⟨v, hv, rfl⟩ := ht
    exact .inr ⟨_, v, _, rfl, rfl, rfl, hv, OptionSlot.entry_eq_text ..⟩
  | _ => cases hp

/-- **All parameters.** -/
theorem writes_slots {s : Scope} {ps : List Expr} {slots : List Slot}
    (hps : ∀ p ∈ ps, p.isPlainParameter = true) (h : Expr.emitSlots s ps = .ok slots)
    (aliasName : Option String) :
    slots.filterMap Slot.rest? = [] ∧ slots.filterMap Slot.keywords? = [] ∧
    List.Forall₂ (OutputParameter.Writes s aliasName) (ps.filterMap (Expr.single? s.receiver))
      (slots.filterMap Slot.positional?) ∧
    ∃ values, List.Forall₂ (fun e v => e.value.emit s = .ok v) (ps.filterMap Expr.entry?) values ∧
      (slots.filterMap Slot.option?).map OptionSlot.entry =
        List.zipWith OutputEntry.text (ps.filterMap Expr.entry?) values := by
  induction ps generalizing slots with
  | nil =>
    obtain rfl := Except.ok.inj h
    exact ⟨rfl, rfl, .nil, [], .nil, rfl⟩
  | cons p ps ih =>
    simp only [Expr.emitSlots, Result.bind_eq_ok, Result.pure_eq_ok] at h
    obtain ⟨t, ht, slot, hslot, slots, hslots, rfl⟩ := h
    obtain ⟨hrest, hkeywords, hpos, values, hvalues, hentries⟩ :=
      ih (fun q hq => hps q (List.mem_cons_of_mem _ hq)) hslots
    -- the first parameter belongs to one of two lists, and the other stays
    rcases writes_slot (hps p (List.mem_cons_self ..)) ht hslot aliasName with
      ⟨q, hq, he, rfl, hw⟩ | ⟨e, v, o, hq, he, rfl, hv, ho⟩
    · refine ⟨hrest, hkeywords, ?_, values, ?_, ?_⟩
      · rw [List.filterMap_cons_some hq]
        exact .cons hw hpos
      · rwa [List.filterMap_cons_none he]
      · rw [List.filterMap_cons_none he]
        exact hentries
    · refine ⟨hrest, hkeywords, ?_, v :: values, ?_, ?_⟩
      · rw [List.filterMap_cons_none hq]
        exact hpos
      · rw [List.filterMap_cons_some he]
        exact .cons hv hvalues
      · rw [List.filterMap_cons_some he, List.zipWith_cons_cons, ← hentries, ← ho]
        rfl

/-- **The parameters of the output are what a definition writes.** -/
theorem writes_outputParameters {s : Scope} {ps : List Expr} {slots : List Slot}
    {texts : List String} {name definition : Option String}
    (hps : ∀ p ∈ ps, p.isPlainParameter = true) (h : Expr.emitSlots s ps = .ok slots)
    (htexts : (Signature.ofSlots slots).parameters name = .ok (texts, definition)) :
    List.Forall₂ (OutputParameter.Writes s ((Signature.ofSlots slots).aliasName? name))
      (outputParameters s.receiver ps) texts := by
  obtain ⟨hrest, hkeywords, hpos, values, hvalues, hentries⟩ :=
    writes_slots hps h ((Signature.ofSlots slots).aliasName? name)
  -- without stars a signature has two lists only
  have hsig : Signature.ofSlots slots =
      ⟨slots.filterMap Slot.positional?, slots.filterMap Slot.option?, [], none⟩ := by
    rw [Signature.ofSlots_eq, hrest, hkeywords]
    rfl
  simp only [Signature.parameters, Result.bind_eq_ok, Result.pure_eq_ok, Prod.mk.injEq] at htexts
  obtain ⟨_, -, rfl, -⟩ := htexts
  generalize haliasName : (Signature.ofSlots slots).aliasName? name = aliasName at hpos ⊢
  simp only [hsig, Signature.hasObject, Option.isSome_none, Bool.or_false, List.append_nil]
  refine List.rel_append hpos ?_
  cases hes : ps.filterMap Expr.entry? with
  | nil =>
    rw [hes, List.zipWith_nil_left, List.map_eq_nil_iff] at hentries
    rw [hentries]
    exact .nil
  | cons e es =>
    -- an entry has a slot, so there is a pattern
    have hne : slots.filterMap Slot.option? ≠ [] := by
      rintro hnil
      rw [hes] at hvalues hentries
      cases hvalues
      rw [hnil] at hentries
      cases hentries
    rw [if_pos (by simpa using hne)]
    refine .cons ⟨values, hes ▸ hvalues, ?_⟩ .nil
    rw [← hes, ← hentries]
    cases aliasName with
    | none => simp only [Signature.pattern, List.append_nil]
    | some name => simp only [Signature.pattern, List.append_nil]

/-- **One argument.** It is passed by position, or its text is its key
and its value. -/
theorem writes_argument {s : Scope} {a : Expr} {t : String}
    (ha : a.isPositional = true ∨ a.named?.isSome = true) (h : a.emit s = .ok t) :
    (a.isPositional = true ∧ a.named? = none ∧ a.isNamedArgument = false) ∨
    ∃ n e v, a.isPositional = false ∧ a.named? = some (n, e) ∧ a.isNamedArgument = true ∧
      e.emit s = .ok v ∧ t = Identifier.property n ++ ": " ++ v := by
  cases a with
  | keywordArgument name value loc =>
    simp only [Expr.emit, Result.bind_eq_ok, Result.pure_eq_ok] at h
    obtain ⟨v, hv, rfl⟩ := h
    exact .inr ⟨name, value, v, rfl, rfl, rfl, hv, rfl⟩
  | reference name splat loc =>
    cases splat with
    | none => exact .inl ⟨rfl, rfl, rfl⟩
    | some _ => rcases ha with ha | ha <;> cases ha
  | _ => exact .inl ⟨rfl, rfl, rfl⟩

theorem writes_arguments {s : Scope} {args : List Expr} {texts : List String}
    (hargs : ∀ a ∈ args, a.isPositional = true ∨ a.named?.isSome = true)
    (h : Expr.emitAll s args = .ok texts) :
    List.Forall₂ (OutputArgument.Writes s) ((args.filter Expr.isPositional).map .value)
      (((args.zip texts).filter (!·.1.isNamedArgument)).map (·.2)) ∧
    ∃ values, List.Forall₂ (fun x v => x.2.emit s = .ok v) (args.filterMap Expr.named?) values ∧
      ((args.zip texts).filter (·.1.isNamedArgument)).map (·.2) =
        List.zipWith (fun x v => Identifier.property x.1 ++ ": " ++ v)
          (args.filterMap Expr.named?) values := by
  induction args generalizing texts with
  | nil => exact ⟨.nil, [], .nil, rfl⟩
  | cons a args ih =>
    simp only [Expr.emitAll, Result.bind_eq_ok, Result.pure_eq_ok] at h
    obtain ⟨t, ht, texts, htexts, rfl⟩ := h
    obtain ⟨hpos, values, hvalues, hnamed⟩ :=
      ih (fun x hx => hargs x (List.mem_cons_of_mem _ hx)) htexts
    rcases writes_argument (hargs a (List.mem_cons_self ..)) ht with
      ⟨hp, hn, hna⟩ | ⟨n, e, v, hp, hn, hna, hv, rfl⟩
    · refine ⟨?_, values, ?_, ?_⟩
      · rw [List.filter_cons_of_pos hp, List.zip_cons_cons,
          List.filter_cons_of_pos (by simp [hna])]
        exact .cons ht hpos
      · rwa [List.filterMap_cons_none hn]
      · simpa [hna, List.filterMap_cons_none hn] using hnamed
    · refine ⟨?_, v :: values, ?_, ?_⟩
      · rw [List.filter_cons_of_neg (by simp [hp]), List.zip_cons_cons,
          List.filter_cons_of_neg (by simp [hna])]
        exact hpos
      · rw [List.filterMap_cons_some hn]
        exact .cons hv hvalues
      · simpa [hna, List.filterMap_cons_some hn] using hnamed

/-- **The arguments of the output are what a call writes.** -/
theorem writes_outputArguments {s : Scope} {args : List Expr} {texts : List String}
    (hargs : ∀ a ∈ args, a.isPositional = true ∨ a.named?.isSome = true)
    (h : Expr.emitAll s args = .ok texts) :
    List.Forall₂ (OutputArgument.Writes s)
      (outputArguments (args.filter Expr.isPositional) (args.filterMap Expr.named?))
      (argumentList (args.zip texts)) := by
  obtain ⟨hpos, values, hvalues, hnamed⟩ := writes_arguments hargs h
  rw [outputArguments, argumentList]
  refine List.rel_append hpos ?_
  rw [hnamed]
  cases hargs' : args.filterMap Expr.named? with
  | nil => exact .nil
  | cons x xs =>
    rw [hargs'] at hvalues
    obtain ⟨v, vs, hv, hvs, rfl⟩ := List.forall₂_cons_left_iff.1 hvalues
    refine .cons ⟨v :: vs, List.forall₂_map_left_iff.2 (.cons hv hvs), ?_⟩ .nil
    rw [List.zipWith_map_left]

/-! ## Definitions and calls -/

/-- **When a call fits the definition it is meant for.** A definition and
a call that were written pass what `outputParameters` and
`outputArguments` say. If the source accepts the call, the output binds
every parameter as the source does exactly when the positions of the call
reach parameters without a default, its names are those of parameters
with one, and no parameter without a default is written `this`. -/
theorem call_binds_iff {s s' : Scope} {name : String} {parameters : List Expr} {body : List Stmt}
    {returnType : Option String} {decorators : List String} {loc loc' : Option Location}
    {f : Fragment} {callee : Expr} {args : List Expr} {text : String}
    (hdef : (Stmt.function name parameters body returnType decorators loc).emit s = .ok f)
    (hcall : (Expr.call callee args loc').emit s' = .ok text)
    (hplain : ∀ p ∈ s.passed decorators parameters, p.isPlainParameter = true)
    (hnodup : (boundNames (s.passed decorators parameters)).Nodup)
    (hargs : ∀ a ∈ args, a.isPositional = true ∨ a.named?.isSome = true)
    (hacc : Accepts (s.passed decorators parameters) (args.filter Expr.isPositional)
      (args.filterMap Expr.named?)) :
    ∃ (texts argTexts : List String) (returns c : String) (aliasName : Option String),
      s.functionHeader name decorators texts returns ∈ f.lines ∧
      List.Forall₂ (OutputParameter.Writes s.reading aliasName)
        (outputParameters s.receiver (s.passed decorators parameters)) texts ∧
      text = c ++ "(" ++ ", ".intercalate argTexts ++ ")" ∧
      List.Forall₂ (OutputArgument.Writes s'.reading)
        (outputArguments (args.filter Expr.isPositional) (args.filterMap Expr.named?)) argTexts ∧
      (Agrees s.receiver (s.passed decorators parameters)
          (args.filter Expr.isPositional) (args.filterMap Expr.named?) ↔
        FollowsConvention s.receiver (s.passed decorators parameters)
          (args.filter Expr.isPositional) (args.filterMap Expr.named?)) := by
  obtain ⟨slots, texts, definition, b, returns, hslots, htexts, -, -, rfl⟩ := emit_function hdef
  obtain ⟨c, as, -, has, rfl⟩ := emit_call hcall
  refine ⟨texts, argumentList (args.zip as), returns, c, _, ?_,
    writes_outputParameters hplain hslots htexts, rfl, writes_outputArguments hargs has,
    agrees_iff_followsConvention hplain hnodup hacc⟩
  simp [braced]

/-- A parameter without a default and one with. -/
def mixedParameters : List Expr :=
  [.reference "a" none none, .defaultParameter "b" (.number .integer "1" none) none]

/-- A number. -/
def numeral (text : String) : Expr :=
  .number .integer text none

/-- The default is passed by name: the call is accepted, follows the
convention, and binds both parameters as the source does. -/
theorem call_binds_iff_named :
    (Stmt.function "f" mixedParameters [] none [] none).emit .top
      = .ok ⟨["function f(a, \x7b b = 1 \x7d = \x7b\x7d) \x7b", "\x7d"], []⟩ ∧
    (Expr.call (.reference "f" none none) [numeral "1", .keywordArgument "b" (numeral "2") none]
      none).emit .top = .ok "f(1, \x7b b: 2 \x7d)" ∧
    Accepts mixedParameters [numeral "1"] [("b", numeral "2")] ∧
    Agrees none mixedParameters [numeral "1"] [("b", numeral "2")] := by
  have hdef : (Stmt.function "f" mixedParameters [] none [] none).emit .top
      = .ok ⟨["function f(a, \x7b b = 1 \x7d = \x7b\x7d) \x7b", "\x7d"], []⟩ :=
    Result.eq_ok_of_toOption (by decide +kernel)
  have hcall : (Expr.call (.reference "f" none none)
      [numeral "1", .keywordArgument "b" (numeral "2") none] none).emit .top
      = .ok "f(1, \x7b b: 2 \x7d)" :=
    Result.eq_ok_of_toOption (by decide +kernel)
  have hacc : Accepts mixedParameters [numeral "1"] [("b", numeral "2")] :=
    ⟨by decide, by decide, by decide, by simp [mixedParameters, Expr.default?]⟩
  obtain ⟨_, _, _, _, _, -, -, -, -, hiff⟩ := call_binds_iff hdef hcall
    (by simp [Scope.passed, Scope.top, mixedParameters, Expr.isPlainParameter])
    (by decide +kernel) (by simp [numeral, Expr.isPositional, Expr.named?]) hacc
  refine ⟨hdef, hcall, hacc, hiff.2 ?_⟩
  refine (⟨?_, ?_, ?_⟩ : FollowsConvention none mixedParameters [numeral "1"] [("b", numeral "2")])
  · simp [mixedParameters, Expr.default?]
  · simp [mixedParameters, Expr.parameterName?, Expr.default?]
  · simp [mixedParameters, Expr.single?, OutputParameter.takesArgument, camel_ne_this]

/-- **A position does not reach a default.** The source gives the second
number to `b`; in the output the pattern takes it apart, and `b` receives
its property of that name. -/
theorem positional_default_differs :
    (Stmt.function "f" mixedParameters [] none [] none).emit .top
      = .ok ⟨["function f(a, \x7b b = 1 \x7d = \x7b\x7d) \x7b", "\x7d"], []⟩ ∧
    (Expr.call (.reference "f" none none) [numeral "1", numeral "2"] none).emit .top
      = .ok "f(1, 2)" ∧
    (∀ p ∈ mixedParameters, p.isPlainParameter = true) ∧ (boundNames mixedParameters).Nodup ∧
    Accepts mixedParameters [numeral "1", numeral "2"] [] ∧
    ¬ Agrees none mixedParameters [numeral "1", numeral "2"] [] := by
  have hplain : ∀ p ∈ mixedParameters, p.isPlainParameter = true := by
    simp [mixedParameters, Expr.isPlainParameter]
  have hnodup : (boundNames mixedParameters).Nodup := by decide +kernel
  have hacc : Accepts mixedParameters [numeral "1", numeral "2"] [] :=
    ⟨by decide, by decide, by decide, by simp [mixedParameters]⟩
  refine ⟨Result.eq_ok_of_toOption (by decide +kernel),
    Result.eq_ok_of_toOption (by decide +kernel), hplain, hnodup, hacc, fun hagree => ?_⟩
  have hfollows := (agrees_iff_followsConvention hplain hnodup hacc).1 hagree
  have hnone := hfollows.positions (.defaultParameter "b" (numeral "1") none)
    (by simp [mixedParameters, numeral])
  cases hnone

end Scribe
