import Scribe.Proofs.Calling.Written
import Scribe.Proofs.Emit.Aliases

/-!
# Reshaped parameter lists

Parameters without default and star stay as they are, those with a default
go into one pattern, with the collector of named arguments behind them, and
collectors of positional arguments come last. `Reshapes` says this of the
parameters themselves, without slots and signatures. `parameters_reshaped`
shows that this is what is written, and when it is.
-/

namespace Scribe

variable {s : Scope} {ps : List Expr} {slots : List Slot} {name : Option String}

/-! ## What is specified -/

/-- **The spellings of a name.** Calls pass it under `key`, and where it is
read it is `bound`, unless it is that of the receiver in force. -/
structure SpelledAs (name key bound : String) : Prop where
  key_eq : key = Identifier.property name
  bound_eq : bound = Identifier.camel name
  passed : ∀ (s : Scope) (value : Expr) (text : String) (loc : Option Location),
    value.emit s = .ok text →
      (Expr.keywordArgument name value loc).emit s = .ok (key ++ ": " ++ text)
  read : ∀ (s : Scope) (loc : Option Location), (Expr.reference name none loc).emit s =
    .ok (if s.receiver = some name then "this" else bound)

namespace Expr

/-- **The entry of the pattern that stands for a parameter with a default.**
It takes the key that calls use and binds the name that the body reads. -/
def EnteredBy (s : Scope) (text : String) (p : Expr) : Prop :=
  ∃ name value key bound v, p.parameterName? = some name ∧ p.default? = some value ∧
    SpelledAs name key bound ∧ value.emit s = .ok v ∧
    text = OutputEntry.text ⟨key, bound, value⟩ v

/-- The entry of the pattern that stands for a collector of named
arguments. -/
def GatheredBy (text : String) (p : Expr) : Prop :=
  ∃ name type, p.Collects (name, type) ∧ text = "..." ++ Identifier.camel name

end Expr

/-- The name of the options type, if the parameters have one. -/
def optionsType (name : Option String) (ps : List Expr) : Option String :=
  if ps.any Expr.isTypedDefault then name else none

/-- **What a list of parameters becomes.** -/
structure Reshapes (s : Scope) (name : Option String) (ps : List Expr) (texts : List String)
    (definition : Option String) : Prop where
  /-- Every parameter is of one kind. -/
  kinds : ∀ p ∈ ps, [p.isSingle, p.isDefaulted, p.isCollector, p.isRest].count true = 1
  /-- What is written for the parameters, kind by kind. -/
  list : ∃ singles entries tail rest,
    List.Forall₂ (fun p t => p.emit s = .ok t) (ps.filter Expr.isSingle) singles ∧
    List.Forall₂ (fun p t => p.EnteredBy s t) (ps.filter Expr.isDefaulted) entries ∧
    List.Forall₂ (fun p t => p.GatheredBy t) (ps.filter Expr.isCollector) tail ∧
    List.Forall₂ (fun p t => p.emit s = .ok t) (ps.filter Expr.isRest) rest ∧
    texts = singles
      ++ (if ps.any fun p => p.isDefaulted || p.isCollector then
          [FunctionSite.optionsPattern (", ".intercalate (entries ++ tail)) (optionsType name ps)]
        else [])
      ++ rest
  /-- The options type has a member for each entry. -/
  options : match optionsType name ps with
    | none => definition = none
    | some n => ∃ members index,
      List.Forall₂ (fun p m => p.DeclaredBy m) (ps.filter Expr.isDefaulted) members ∧
      List.Forall₂ (fun p m => ∃ t, p.IndexedBy t ∧ m = "[key: string]: " ++ t)
        (ps.filter Expr.isCollector) index ∧
      definition =
        some ("type " ++ n ++ " = \x7b " ++ ", ".intercalate (members ++ index) ++ " \x7d")

/-- **The parameters can be reshaped**: all of them are written, and the types
of all members are accepted. That of a collector counts only if there is an
options type. -/
structure Reshapable (s : Scope) (name : Option String) (ps : List Expr) : Prop where
  written : ∀ p ∈ ps, ∃ t, p.emit s = .ok t
  declared : ∀ p ∈ ps, p.isDefaulted = true → ∃ m, p.DeclaredBy m
  indexed : (optionsType name ps).isSome = true →
    ∀ p ∈ ps, p.isCollector = true → ∃ t, p.IndexedBy t

/-! ## One parameter -/

theorem spelledAs (name : String) :
    SpelledAs name (Identifier.property name) (Identifier.camel name) := by
  refine ⟨rfl, rfl, fun s value text loc h => ?_, fun s loc => ?_⟩
  · rw [Expr.emit, h]
    rfl
  · rw [Expr.emit]

/-- Every parameter is of one kind. -/
theorem Expr.count_kinds {p : Expr} (h : p.parameterName?.isSome = true) :
    [p.isSingle, p.isDefaulted, p.isCollector, p.isRest].count true = 1 := by
  cases p with
  | reference name splat loc => rcases splat with _ | _ | _ <;> rfl
  | typedParameter name type splat loc => rcases splat with _ | _ | _ <;> rfl
  | defaultParameter name value loc => rfl
  | typedDefaultParameter name type value loc => rfl
  | _ => cases h

/-- A parameter is passed by name if it has a default, and then its slot has
the entry of the parameter. -/
theorem enteredBy_slot {p : Expr} {t : String} {slot : Slot} (ht : p.emit s = .ok t)
    (hslot : Slot.ofParameter t p = .ok slot) :
    if p.isDefaulted then ∃ o, slot.option? = some o ∧ p.EnteredBy s o.entry
    else slot.option? = none := by
  cases p with
  | reference name splat loc =>
    rcases splat with _ | _ | _ <;> obtain rfl := Except.ok.inj hslot <;> rfl
  | typedParameter name type splat loc =>
    rcases splat with _ | _ | _ <;> obtain rfl := Except.ok.inj hslot <;> rfl
  | defaultParameter name value loc =>
    obtain rfl := Except.ok.inj hslot
    simp only [Expr.emit, Result.bind_eq_ok, Result.pure_eq_ok] at ht
    obtain ⟨v, hv, rfl⟩ := ht
    exact ⟨_, rfl, name, value, _, _, v, rfl, rfl, spelledAs name, hv,
      OptionSlot.entry_eq_text ..⟩
  | typedDefaultParameter name type value loc =>
    simp only [Slot.ofParameter, Result.bind_eq_ok, Result.pure_eq_ok] at hslot
    obtain ⟨mapped, -, rfl⟩ := hslot
    simp only [Expr.emit, Result.bind_eq_ok, Result.pure_eq_ok] at ht
    obtain ⟨v, hv, rfl⟩ := ht
    exact ⟨_, rfl, name, value, _, _, v, rfl, rfl, spelledAs name, hv,
      OptionSlot.entry_eq_text ..⟩
  | _ => cases hslot

/-! ## All parameters -/

/-- The entries of the parameters with a default, in order. -/
theorem enteredBy_slots (h : Expr.emitSlots s ps = .ok slots) :
    List.Forall₂ (fun p t => p.EnteredBy s t) (ps.filter Expr.isDefaulted)
      ((slots.filterMap Slot.option?).map OptionSlot.entry) := by
  induction ps generalizing slots with
  | nil =>
    obtain rfl := Except.ok.inj h
    exact .nil
  | cons p ps ih =>
    simp only [Expr.emitSlots, Result.bind_eq_ok, Result.pure_eq_ok] at h
    obtain ⟨t, ht, slot, hslot, slots, hslots, rfl⟩ := h
    have hp := enteredBy_slot ht hslot
    split at hp
    · rename_i hdefaulted
      obtain ⟨o, ho, hentered⟩ := hp
      rw [List.filter_cons_of_pos hdefaulted, List.filterMap_cons_some ho]
      exact .cons hentered (ih hslots)
    · rename_i hdefaulted
      rw [List.filter_cons_of_neg hdefaulted, List.filterMap_cons_none hp]
      exact ih hslots

/-- Parameters have slots if they are written and their members have
types. -/
theorem exists_emitSlots (hshape : ∀ p ∈ ps, p.parameterName?.isSome = true)
    (hwritten : ∀ p ∈ ps, ∃ t, p.emit s = .ok t)
    (hdeclared : ∀ p ∈ ps, p.isDefaulted = true → ∃ m, p.DeclaredBy m) :
    ∃ slots, Expr.emitSlots s ps = .ok slots := by
  induction ps with
  | nil => exact ⟨[], rfl⟩
  | cons p ps ih =>
    rw [List.forall_mem_cons] at hshape hwritten hdeclared
    obtain ⟨t, ht⟩ := hwritten.1
    obtain ⟨slot, hslot⟩ : ∃ slot, Slot.ofParameter t p = .ok slot := by
      refine Slot.exists_ofParameter hshape.1 ?_ t
      rintro name type value loc rfl
      obtain ⟨m, mapped, hmapped, -⟩ := hdeclared.1 rfl
      exact ⟨mapped, hmapped⟩
    obtain ⟨slots, hslots⟩ := ih hshape.2 hwritten.2 hdeclared.2
    refine ⟨slot :: slots, ?_⟩
    simp only [Expr.emitSlots, Result.bind_eq_ok, Result.pure_eq_ok]
    exact ⟨t, ht, slot, hslot, slots, hslots, rfl⟩

namespace Sorts

/-- A single collector of named arguments is the one a signature keeps. -/
theorem collector_cases (h : Sorts s ps slots) (hone : (ps.filter Expr.isCollector).length ≤ 1) :
    (ps.filter Expr.isCollector = [] ∧ (Signature.ofSlots slots).keywords = none) ∨
    ∃ p name type, ps.filter Expr.isCollector = [p] ∧ p.Collects (name, type) ∧
      (Signature.ofSlots slots).keywords = some (name, type) := by
  have hcollectors := h.collectors
  rw [Signature.ofSlots_eq]
  rcases hfilter : ps.filter Expr.isCollector with _ | ⟨p, _ | ⟨q, rest⟩⟩
  · rw [hfilter, List.forall₂_nil_left_iff] at hcollectors
    exact .inl ⟨rfl, by rw [hcollectors]; rfl⟩
  · rw [hfilter, List.forall₂_cons_left_iff] at hcollectors
    obtain ⟨⟨name, type⟩, rest, hp, hrest, hkeywords⟩ := hcollectors
    rw [List.forall₂_nil_left_iff] at hrest
    exact .inr ⟨p, name, type, rfl, hp, by rw [hkeywords, hrest]; rfl⟩
  · -- of two collectors a signature would keep the second
    rw [hfilter] at hone
    simp at hone

/-- The pattern ends with the collector of named arguments. -/
theorem tail (h : Sorts s ps slots) (hone : (ps.filter Expr.isCollector).length ≤ 1) :
    List.Forall₂ (fun p t => p.GatheredBy t) (ps.filter Expr.isCollector)
      (match (Signature.ofSlots slots).keywords with
        | some (name, _) => ["..." ++ Identifier.camel name]
        | none => []) := by
  rcases h.collector_cases hone with ⟨hnil, hnone⟩ | ⟨p, name, type, hp, hcollects, hsome⟩
  · rw [hnil, hnone]
    exact .nil
  · rw [hp, hsome]
    exact .cons ⟨name, type, hcollects, rfl⟩ .nil

/-- **The member for all other names**, if there is a collector of them. -/
theorem indexMember_eq_ok_iff (h : Sorts s ps slots)
    (hone : (ps.filter Expr.isCollector).length ≤ 1) {index : List String} :
    (Signature.ofSlots slots).indexMember = .ok index ↔
      List.Forall₂ (fun p m => ∃ t, p.IndexedBy t ∧ m = "[key: string]: " ++ t)
        (ps.filter Expr.isCollector) index := by
  rw [Signature.indexMember]
  rcases h.collector_cases hone with ⟨hnil, hnone⟩ | ⟨p, name, type, hp, hcollects, hsome⟩
  · rw [hnil, hnone, List.forall₂_nil_left_iff]
    exact ⟨fun heq => (Except.ok.inj heq).symm, fun heq => heq ▸ rfl⟩
  · rw [hp, hsome]
    simp only [List.forall₂_cons_left_iff, List.forall₂_nil_left_iff]
    unfold Expr.Collects at hcollects
    split at hcollects
    · cases hcollects
      have hany : "[key: string]: " ++ "any" = "[key: string]: any" := rfl
      simp [Expr.IndexedBy, hany, eq_comm]
    · cases hcollects
      simp only [Result.bind_eq_ok, Result.pure_eq_ok, Expr.IndexedBy]
      constructor
      · rintro ⟨t, ht, rfl⟩
        exact ⟨_, [], ⟨t, ht, rfl⟩, rfl, rfl⟩
      · rintro ⟨_, _, ⟨t, ht, rfl⟩, rfl, rfl⟩
        exact ⟨t, ht, rfl⟩
    · cases hcollects

theorem aliasName?_eq (h : Sorts s ps slots) (name : Option String) :
    (Signature.ofSlots slots).aliasName? name = optionsType name ps := by
  rw [Signature.aliasName?, h.isTyped, optionsType]

end Sorts

/-- **A written list of parameters is reshaped.** -/
theorem reshapes_of_parameters {texts : List String} {definition : Option String}
    (hone : (ps.filter Expr.isCollector).length ≤ 1)
    (hshape : ∀ p ∈ ps, p.parameterName?.isSome = true) (hslots : Expr.emitSlots s ps = .ok slots)
    (h : (Signature.ofSlots slots).parameters name = .ok (texts, definition)) :
    Reshapes s name ps texts definition := by
  have hsorts := sorts_emitSlots hslots
  simp only [Signature.parameters, hsorts.aliasName?_eq, hsorts.hasObject, Result.bind_eq_ok,
    Result.pure_eq_ok, Prod.mk.injEq] at h
  obtain ⟨_, hdefinition, rfl, rfl⟩ := h
  refine ⟨fun p hp => Expr.count_kinds (hshape p hp), ⟨_, _, _, _, hsorts.singles,
    enteredBy_slots hslots, hsorts.tail hone, hsorts.rest, ?_⟩, ?_⟩
  · rw [Signature.ofSlots_eq]
    rfl
  · cases hname : optionsType name ps with
    | none =>
      rw [hname] at hdefinition
      exact (Except.ok.inj hdefinition).symm
    | some n =>
      simp only [hname, Signature.aliasText, Result.bind_eq_ok, Result.pure_eq_ok] at hdefinition
      obtain ⟨index, hindex, rfl⟩ := hdefinition
      refine ⟨_, index, ?_, (hsorts.indexMember_eq_ok_iff hone).1 hindex, rfl⟩
      rw [Signature.ofSlots_eq, List.forall₂_map_right_iff]
      exact hsorts.options.imp fun _ _ ho => ho.1

/-! ## When parameters are written -/

theorem exists_forall₂_iff {α β : Type} {R : α → β → Prop} {as : List α} :
    (∃ bs, List.Forall₂ R as bs) ↔ ∀ a ∈ as, ∃ b, R a b := by
  induction as with
  | nil => exact iff_of_true ⟨[], .nil⟩ (List.forall_mem_nil _)
  | cons a as ih =>
    rw [List.forall_mem_cons, ← ih]
    constructor
    · rintro ⟨_, _ | ⟨hb, hbs⟩⟩
      exact ⟨⟨_, hb⟩, ⟨_, hbs⟩⟩
    · rintro ⟨⟨b, hb⟩, ⟨bs, hbs⟩⟩
      exact ⟨b :: bs, .cons hb hbs⟩

namespace Sorts

/-- The member for all other names has a type if the collector has one. -/
theorem exists_indexMember_iff (h : Sorts s ps slots)
    (hone : (ps.filter Expr.isCollector).length ≤ 1) :
    (∃ index, (Signature.ofSlots slots).indexMember = .ok index) ↔
      ∀ p ∈ ps, p.isCollector = true → ∃ t, p.IndexedBy t := by
  simp only [h.indexMember_eq_ok_iff hone, exists_forall₂_iff, List.mem_filter, and_imp]
  refine forall₃_congr fun p _ _ => ⟨?_, ?_⟩
  · rintro ⟨_, t, ht, -⟩
    exact ⟨t, ht⟩
  · rintro ⟨t, ht⟩
    exact ⟨_, t, ht, rfl⟩

/-- A list of slots has a parameter list if the member for all other names
has a type, or none is wanted. -/
theorem exists_parameters_iff (h : Sorts s ps slots) :
    (∃ result, (Signature.ofSlots slots).parameters name = .ok result) ↔
      ((optionsType name ps).isSome = true →
        ∃ index, (Signature.ofSlots slots).indexMember = .ok index) := by
  simp only [Signature.parameters, h.aliasName?_eq, Result.bind_eq_ok, Result.pure_eq_ok]
  cases optionsType name ps with
  | none => exact iff_of_true ⟨_, none, rfl, rfl⟩ (by simp)
  | some n =>
    simp only [Signature.aliasText, Result.bind_eq_ok, Result.pure_eq_ok]
    constructor
    · rintro ⟨_, _, ⟨index, hindex, -⟩, -⟩ -
      exact ⟨index, hindex⟩
    · intro hindex
      obtain ⟨index, hindex⟩ := hindex rfl
      exact ⟨_, _, ⟨index, hindex, rfl⟩, rfl⟩

end Sorts

/-- **When a list of parameters is written.** -/
theorem exists_parameters_iff (hone : (ps.filter Expr.isCollector).length ≤ 1)
    (hshape : ∀ p ∈ ps, p.parameterName?.isSome = true) :
    (∃ slots result, Expr.emitSlots s ps = .ok slots ∧
      (Signature.ofSlots slots).parameters name = .ok result) ↔ Reshapable s name ps := by
  constructor
  · rintro ⟨slots, result, hslots, h⟩
    have hsorts := sorts_emitSlots hslots
    refine ⟨fun p hp => ?_, fun p hp hdefaulted => ?_, fun hsome => ?_⟩
    · obtain ⟨t, ht, -⟩ := exists_slot hslots hp
      exact ⟨t, ht⟩
    · have hp := List.mem_filter.2 ⟨hp, hdefaulted⟩
      obtain ⟨o, ho, -⟩ := exists_forall₂_iff.1 ⟨_, hsorts.options⟩ p hp
      exact ⟨_, ho⟩
    · have hindex := hsorts.exists_parameters_iff.1 ⟨result, h⟩ hsome
      exact (hsorts.exists_indexMember_iff hone).1 hindex
  · rintro ⟨hwritten, hdeclared, hindexed⟩
    obtain ⟨slots, hslots⟩ := exists_emitSlots hshape hwritten hdeclared
    have hsorts := sorts_emitSlots hslots
    have hparameters : ∃ result, (Signature.ofSlots slots).parameters name = .ok result :=
      hsorts.exists_parameters_iff.2 fun hsome =>
        (hsorts.exists_indexMember_iff hone).2 (hindexed hsome)
    obtain ⟨result, hresult⟩ := hparameters
    exact ⟨slots, result, hslots, hresult⟩

/-- **Parameters are reshaped and nothing is lost.** A list of parameters
with one collector of named arguments at most is written exactly if its
parameters are and its types are accepted. What is written is then each
parameter once: in front, in the pattern or at the end, and in the options
type if it is an option and the type has a name. -/
theorem parameters_reshaped (s : Scope) (name : Option String) (ps : List Expr)
    (hshape : ∀ p ∈ ps, p.parameterName?.isSome = true)
    (hone : (ps.filter Expr.isCollector).length ≤ 1) :
    ((∃ slots result, Expr.emitSlots s ps = .ok slots ∧
      (Signature.ofSlots slots).parameters name = .ok result) ↔ Reshapable s name ps) ∧
    ∀ slots texts definition, Expr.emitSlots s ps = .ok slots →
      (Signature.ofSlots slots).parameters name = .ok (texts, definition) →
      Reshapes s name ps texts definition :=
  ⟨exists_parameters_iff hone hshape,
    fun _ _ _ hslots h => reshapes_of_parameters hone hshape hslots h⟩

/-- Parameters of every kind, in no order. The name `class` is reserved. -/
def jumbledParameters : List Expr :=
  [.typedDefaultParameter "my_size" "int" (.null none) none, .reference "args" (some .list) none,
    .typedParameter "others" "str" (some .dictionary) none, .reference "a" none none,
    .defaultParameter "class" (.boolean true none) none, .typedParameter "b" "int" none none]

/-- How they are passed. -/
def jumbledSlots : List Slot :=
  [.option ⟨"mySize", "mySize", "mySize = null", some "number"⟩, .rest "...args",
    .keywords "others" (some "str"), .positional "a",
    .option ⟨"class", "class_", "class_ = true", none⟩, .positional "b: number"]

/-- The parameters of every kind are written, and each finds its place. -/
theorem parameters_reshaped_jumbled :
    Reshapable .top (some "Options") jumbledParameters ∧
    Reshapes .top (some "Options") jumbledParameters
      ["a", "b: number",
        "\x7b mySize = null, class: class_ = true, ...others \x7d: Options = \x7b\x7d", "...args"]
      (some "type Options = \x7b mySize?: number, class?: any, [key: string]: string \x7d") := by
  have hshape : ∀ p ∈ jumbledParameters, p.parameterName?.isSome = true := by
    simp [jumbledParameters, Expr.parameterName?]
  have hslots : Expr.emitSlots .top jumbledParameters = .ok jumbledSlots :=
    Result.eq_ok_of_toOption (by decide +kernel)
  obtain ⟨hwritten, hreshapes⟩ :=
    parameters_reshaped .top (some "Options") jumbledParameters hshape (by decide)
  refine ⟨hwritten.1 ⟨_, _, hslots, ?result⟩, hreshapes _ _ _ hslots ?result⟩
  exact Result.eq_ok_of_toOption (by decide +kernel)

end Scribe
