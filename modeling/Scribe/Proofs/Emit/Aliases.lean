import Mathlib.Data.List.Forall2
import Scribe.Proofs.Emit.Assignment
import Scribe.Proofs.Emit.Signature
import Scribe.Proofs.Syntax.Induction

/-!
# Options aliases

A function with a typed default has a type for its options, and the
definition of that type stands in front of the top-level statement around
the function, however deep the function is. `Stmt.functions` lists the
functions of a statement in source order, each with the place it stands
in; nothing in it refers to what the emitter hands on.

`Stmt.handsOn` compares the two: every statement hands on the aliases of
its functions, no others, and in that order.
`aliases_placed` says it of the blocks of a module, and adds that the
opening line of a function names a type exactly if its alias is there.
-/

namespace Scribe

variable {s : Scope} {f : Fragment}

/-! ## The functions of a statement -/

/-- A function where it stands: inside `depth` bodies, in `scope`. -/
structure FunctionSite where
  depth : Nat
  scope : Scope
  name : String
  parameters : List Expr
  decorators : List String

mutual

/-- The functions of a statement inside `d` bodies, in source order: a
function comes before those of its body. -/
def Stmt.functions (d : Nat) (s : Scope) : Stmt → List FunctionSite
  | .function name parameters body _ decorators _ =>
    ⟨d, s, name, parameters, decorators⟩ :: Stmt.bodyFunctions (d + 1)
      (s.enterFunction (s.receiverInside decorators parameters)) body
  | .classDefinition name body _ _ _ => Stmt.bodyFunctions (d + 1) (s.enterClass name) body
  | .conditional choices _ => Stmt.choiceFunctions (d + 1) s choices
  | .forLoop _ _ body _ => Stmt.bodyFunctions (d + 1) s body
  | .whileLoop _ body _ => Stmt.bodyFunctions (d + 1) s body
  | _ => []

/-- The functions of the statements of a body. -/
def Stmt.bodyFunctions (d : Nat) (s : Scope) : List Stmt → List FunctionSite
  | [] => []
  | st :: sts => st.functions d s ++ Stmt.bodyFunctions d s sts

/-- The functions of the bodies of a chain of choices. -/
def Stmt.choiceFunctions (d : Nat) (s : Scope) : List Choice → List FunctionSite
  | [] => []
  | c :: cs => c.functions d s ++ Stmt.choiceFunctions d s cs

/-- The functions of the body of a choice. -/
def Choice.functions (d : Nat) (s : Scope) : Choice → List FunctionSite
  | .mk _ body => Stmt.bodyFunctions d s body

end

/-! ## What is specified -/

namespace Expr

/-- **The member of an alias that stands for a parameter**: optional,
under the name the parameter is passed by, and with its type. -/
def DeclaredBy (m : String) : Expr → Prop
  | .defaultParameter name _ _ => m = Identifier.property name ++ "?: any"
  | .typedDefaultParameter name type _ _ =>
    ∃ t, typeName type = .ok t ∧ m = Identifier.property name ++ "?: " ++ t
  | _ => False

/-- The type of all other names, as the collector of them gives it. -/
def IndexedBy (t : String) : Expr → Prop
  | .reference _ (some .dictionary) _ => t = "any"
  | .typedParameter _ type (some .dictionary) _ => typeName type = .ok t
  | _ => False

end Expr

namespace FunctionSite

variable (q : FunctionSite)

/-- The parameters that are passed: all but a receiver. -/
def passed : List Expr :=
  q.scope.passed q.decorators q.parameters

/-- Some parameter has a type and a default. -/
def isAliased : Bool :=
  q.parameters.any Expr.isTypedDefault

/-- What the options type of the function is called: after the function,
and after the class around it if it is a method. -/
def aliasName : String :=
  q.scope.optionsName q.name

/-- **The definition of a function's options type**: one member for each
parameter with a default, in order, and one for all other names if the
function collects them. -/
def HasAlias (text : String) : Prop :=
  ∃ members index, List.Forall₂ (fun p m => p.DeclaredBy m)
      (q.parameters.filter Expr.isDefaulted) members ∧
    (if q.parameters.any Expr.isCollector = true then
        ∃ p ∈ q.parameters, ∃ t, p.IndexedBy t ∧ index = ["[key: string]: " ++ t]
      else index = []) ∧
    text = "type " ++ q.aliasName ++ " = \x7b " ++ ", ".intercalate (members ++ index) ++ " \x7d"

/-- The pattern that takes the options apart. -/
def optionsPattern (entries : String) (type : Option String) : String :=
  "\x7b " ++ entries ++ " \x7d"
    ++ (match type with
      | some name => ": " ++ name
      | none => "")
    ++ " = \x7b\x7d"

/-- **The parameter list of a function**: the parameters without default
and star, the pattern of its options if it has any, and the collectors of
positional arguments. `type` is the type that the pattern names. -/
def Lists (texts : List String) (type : Option String) : Prop :=
  ∃ singles object rest, texts = singles ++ object ++ rest ∧
    List.Forall₂ (fun p t => p.emit q.scope.reading = .ok t)
      (q.passed.filter Expr.isSingle) singles ∧
    List.Forall₂ (fun p t => p.emit q.scope.reading = .ok t)
      (q.passed.filter Expr.isRest) rest ∧
    (if q.parameters.any (fun p => p.isDefaulted || p.isCollector) = true then
        ∃ entries, object = [optionsPattern entries type]
      else object = [] ∧ type = none)

end FunctionSite

/-! ## One signature -/

/-- The parameter collects named arguments, under the name and with the
type, as spelled. -/
def Expr.Collects (k : String × Option String) : Expr → Prop
  | .reference name (some .dictionary) _ => k = (name, none)
  | .typedParameter name type (some .dictionary) _ => k = (name, some type)
  | _ => False

/-- **Slots sort parameters.** What a list of slots holds, kind by kind. -/
structure Sorts (s : Scope) (ps : List Expr) (slots : List Slot) : Prop where
  singles : List.Forall₂ (fun p t => p.emit s = .ok t) (ps.filter Expr.isSingle)
    (slots.filterMap Slot.positional?)
  options : List.Forall₂ (fun p o => p.DeclaredBy o.member ∧ o.type.isSome = p.isTypedDefault)
    (ps.filter Expr.isDefaulted) (slots.filterMap Slot.option?)
  rest : List.Forall₂ (fun p t => p.emit s = .ok t) (ps.filter Expr.isRest)
    (slots.filterMap Slot.rest?)
  collectors : List.Forall₂ (fun p k => p.Collects k) (ps.filter Expr.isCollector)
    (slots.filterMap Slot.keywords?)

/-- One parameter more. -/
theorem Sorts.cons {p : Expr} {ps : List Expr} {t : String} {slot : Slot} {slots : List Slot}
    (ht : p.emit s = .ok t) (hslot : Slot.ofParameter t p = .ok slot) (h : Sorts s ps slots) :
    Sorts s (p :: ps) (slot :: slots) := by
  obtain ⟨hsingles, hoptions, hrest, hcollectors⟩ := h
  cases p with
  | reference name splat loc =>
    rcases splat with _ | _ | _
    · obtain rfl := Except.ok.inj hslot
      exact ⟨.cons ht hsingles, hoptions, hrest, hcollectors⟩
    · obtain rfl := Except.ok.inj hslot
      exact ⟨hsingles, hoptions, .cons ht hrest, hcollectors⟩
    · obtain rfl := Except.ok.inj hslot
      exact ⟨hsingles, hoptions, hrest, .cons rfl hcollectors⟩
  | typedParameter name type splat loc =>
    rcases splat with _ | _ | _
    · obtain rfl := Except.ok.inj hslot
      exact ⟨.cons ht hsingles, hoptions, hrest, hcollectors⟩
    · obtain rfl := Except.ok.inj hslot
      exact ⟨hsingles, hoptions, .cons ht hrest, hcollectors⟩
    · obtain rfl := Except.ok.inj hslot
      exact ⟨hsingles, hoptions, hrest, .cons rfl hcollectors⟩
  -- a default without a type is declared with any type
  | defaultParameter name value loc =>
    obtain rfl := Except.ok.inj hslot
    have hmember : Identifier.property name ++ "?: " ++ "any"
        = Identifier.property name ++ "?: any" := String.append_assoc ..
    exact ⟨hsingles, .cons ⟨hmember, rfl⟩ hoptions, hrest, hcollectors⟩
  | typedDefaultParameter name type value loc =>
    simp only [Slot.ofParameter, Result.bind_eq_ok, Result.pure_eq_ok] at hslot
    obtain ⟨mapped, hmapped, rfl⟩ := hslot
    exact ⟨hsingles, .cons ⟨⟨mapped, hmapped, rfl⟩, rfl⟩ hoptions, hrest, hcollectors⟩
  | _ => cases hslot

theorem sorts_emitSlots {ps : List Expr} {slots : List Slot}
    (h : Expr.emitSlots s ps = .ok slots) : Sorts s ps slots := by
  induction ps generalizing slots with
  | nil =>
    obtain rfl := Except.ok.inj h
    exact ⟨.nil, .nil, .nil, .nil⟩
  | cons p ps ih =>
    simp only [Expr.emitSlots, Result.bind_eq_ok, Result.pure_eq_ok] at h
    obtain ⟨t, ht, slot, hslot, slots, hslots, rfl⟩ := h
    exact (ih hslots).cons ht hslot

namespace Sorts

variable {ps : List Expr} {slots : List Slot}

/-- The options are typed if one of the parameters is. -/
theorem isTyped (h : Sorts s ps slots) :
    (Signature.ofSlots slots).isTyped = ps.any Expr.isTypedDefault := by
  have hany : ∀ {as : List Expr} {os : List OptionSlot},
      List.Forall₂ (fun p o => p.DeclaredBy o.member ∧ o.type.isSome = p.isTypedDefault) as os →
      os.any (·.type.isSome) = as.any Expr.isTypedDefault := by
    intro as os hos
    induction hos with
    | nil => rfl
    | cons ho _ ih => rw [List.any_cons, List.any_cons, ho.2, ih]
  rw [Signature.isTyped, Signature.ofSlots_eq, hany h.options, List.any_filter]
  congr 1
  funext p
  cases p <;> rfl

/-- There is a collector among the slots if there is one among the parameters.
-/
theorem keywords_isSome (h : Sorts s ps slots) :
    (Signature.ofSlots slots).keywords.isSome = ps.any Expr.isCollector := by
  have hnil : slots.filterMap Slot.keywords? = [] ↔ ps.filter Expr.isCollector = [] := by
    rw [← List.length_eq_zero_iff, ← List.length_eq_zero_iff, h.collectors.length_eq]
  rw [Signature.ofSlots_eq, Bool.eq_iff_iff, List.getLast?_isSome, List.any_eq_true, Ne, hnil,
    List.filter_eq_nil_iff]
  simp

/-- There is a pattern if a parameter has a default or collects names. -/
theorem hasObject (h : Sorts s ps slots) : (Signature.ofSlots slots).hasObject =
    ps.any fun p => p.isDefaulted || p.isCollector := by
  have hnil : slots.filterMap Slot.option? = [] ↔ ps.filter Expr.isDefaulted = [] := by
    rw [← List.length_eq_zero_iff, ← List.length_eq_zero_iff, h.options.length_eq]
  have hoptions : (!(Signature.ofSlots slots).options.isEmpty) = ps.any Expr.isDefaulted := by
    rw [Signature.ofSlots_eq, Bool.eq_iff_iff, Bool.not_eq_true', List.isEmpty_eq_false_iff,
      List.any_eq_true, Ne, hnil, List.filter_eq_nil_iff]
    simp
  rw [Signature.hasObject, hoptions, h.keywords_isSome, Bool.eq_iff_iff]
  simp only [Bool.or_eq_true, List.any_eq_true, ← exists_or, ← and_or_left]

end Sorts

/-- What is no single parameter is passed. -/
theorem FunctionSite.filter_passed (q : FunctionSite) {P : Expr → Bool}
    (hP : ∀ e, e.isSingle = true → P e = false) : q.passed.filter P = q.parameters.filter P := by
  unfold FunctionSite.passed
  rcases passed_cases q.scope q.decorators q.parameters with h | ⟨receiver, h, hr⟩
  · rw [h]
  · conv_rhs => rw [h]
    rw [List.filter_cons_of_neg (by simp [hP receiver hr])]

/-- A receiver is a single parameter, so it is never what is looked for. -/
theorem FunctionSite.any_passed (q : FunctionSite) {P : Expr → Bool}
    (hP : ∀ e, e.isSingle = true → P e = false) : q.passed.any P = q.parameters.any P := by
  have hany : ∀ es : List Expr, es.any P = !(es.filter P).isEmpty := by
    intro es
    rw [Bool.eq_iff_iff]
    simp
  rw [hany, hany, q.filter_passed hP]

theorem Expr.isDefaulted_of_isTypedDefault {e : Expr} (h : e.isTypedDefault = true) :
    e.isDefaulted = true := by
  unfold Expr.isTypedDefault at h
  split at h
  · rfl
  · cases h

theorem exists_of_forall₂ {α β : Type} {R : α → β → Prop} {as : List α} {bs : List β} {b : β}
    (h : List.Forall₂ R as bs) (hb : b ∈ bs) : ∃ a ∈ as, R a b := by
  induction h with
  | nil => cases hb
  | cons hab _ ih =>
    rcases List.mem_cons.1 hb with rfl | hb
    · exact ⟨_, List.mem_cons_self .., hab⟩
    · obtain ⟨a, ha, hR⟩ := ih hb
      exact ⟨a, List.mem_cons_of_mem _ ha, hR⟩

/-- **The member for all other names** has the type of a collector. -/
theorem Sorts.indexMember {ps : List Expr} {slots : List Slot} {index : List String}
    (h : Sorts s ps slots) (hindex : (Signature.ofSlots slots).indexMember = .ok index) :
    if ps.any Expr.isCollector = true then
      ∃ p ∈ ps, ∃ t, p.IndexedBy t ∧ index = ["[key: string]: " ++ t]
    else index = [] := by
  rw [← h.keywords_isSome]
  unfold Signature.indexMember at hindex
  cases hk : (Signature.ofSlots slots).keywords with
  | none =>
    rw [hk] at hindex
    exact (Except.ok.inj hindex).symm
  | some k =>
    rw [hk] at hindex
    rw [Signature.ofSlots_eq] at hk
    obtain ⟨p, hp, hcollects⟩ := exists_of_forall₂ h.collectors (List.mem_of_getLast? hk)
    refine ⟨p, (List.mem_filter.1 hp).1, ?_⟩
    unfold Expr.Collects at hcollects
    split at hcollects
    · obtain rfl := hcollects
      exact ⟨"any", rfl, (Except.ok.inj hindex).symm⟩
    · obtain rfl := hcollects
      simp only [Result.bind_eq_ok, Result.pure_eq_ok] at hindex
      obtain ⟨t, ht, rfl⟩ := hindex
      exact ⟨t, ht, rfl⟩
    · cases hcollects

/-- **One signature.** The parameter list of a function names a type
exactly if a default is typed, and then the definition of the type is
handed on. -/
theorem FunctionSite.lists_of_parameters (q : FunctionSite) {slots : List Slot}
    {texts : List String} {definition : Option String}
    (hslots : Expr.emitSlots q.scope.reading q.passed = .ok slots)
    (h : (Signature.ofSlots slots).parameters (some q.aliasName) = .ok (texts, definition)) :
    q.Lists texts (if q.isAliased then some q.aliasName else none) ∧
      List.Forall₂ HasAlias ([q].filter isAliased) definition.toList := by
  have hsorts := sorts_emitSlots hslots
  have htyped : (Signature.ofSlots slots).isTyped = q.isAliased := by
    rw [hsorts.isTyped, isAliased, q.any_passed fun e he => (Expr.other_of_isSingle he).1]
  have hobject : (Signature.ofSlots slots).hasObject =
      q.parameters.any fun p => p.isDefaulted || p.isCollector := by
    rw [hsorts.hasObject]
    refine q.any_passed fun e he => ?_
    obtain ⟨-, hdefault, hcollector⟩ := Expr.other_of_isSingle he
    rw [hdefault, hcollector, Bool.or_false]
  simp only [Signature.parameters, Signature.aliasName?, htyped, hobject, Result.bind_eq_ok,
    Result.pure_eq_ok, Prod.mk.injEq] at h
  obtain ⟨_, hdefinition, rfl, rfl⟩ := h
  refine ⟨⟨_, _, _, rfl, ?_, ?_, ?_⟩, ?_⟩
  · rw [Signature.ofSlots_eq]
    exact hsorts.singles
  · rw [Signature.ofSlots_eq]
    exact hsorts.rest
  · split
    · exact ⟨_, rfl⟩
    · rename_i hany
      refine ⟨rfl, if_neg fun haliased => hany ?_⟩
      -- a typed default is a default, so there would be a pattern
      obtain ⟨p, hp, htype⟩ := List.any_eq_true.1 haliased
      refine List.any_eq_true.2 ⟨p, hp, ?_⟩
      rw [Expr.isDefaulted_of_isTypedDefault htype, Bool.true_or]
  · cases haliased : q.isAliased with
    | false =>
      rw [haliased] at hdefinition
      obtain rfl := Except.ok.inj hdefinition
      rw [List.filter_cons_of_neg (by simp [haliased])]
      exact .nil
    | true =>
      rw [haliased] at hdefinition
      simp only [if_true, Signature.aliasText, Result.bind_eq_ok, Result.pure_eq_ok] at hdefinition
      obtain ⟨index, hindex, rfl⟩ := hdefinition
      rw [List.filter_cons_of_pos haliased]
      refine .cons ⟨_, index, ?_, ?_, rfl⟩ .nil
      · rw [← q.filter_passed fun e he => (Expr.other_of_isSingle he).2.1, Signature.ofSlots_eq,
          List.forall₂_map_right_iff]
        exact hsorts.options.imp fun _ _ ho => ho.1
      · have hindexed := hsorts.indexMember hindex
        rw [q.any_passed fun e he => (Expr.other_of_isSingle he).2.2] at hindexed
        split
        · rename_i hany
          rw [if_pos hany] at hindexed
          obtain ⟨p, hp, hindexed⟩ := hindexed
          exact ⟨p, mem_of_mem_passed hp, hindexed⟩
        · rename_i hany
          rwa [if_neg hany] at hindexed

/-! ## What statements hand on -/

/-- **The blocks are the aliases of the functions**: one for each that
has a typed default, in order. -/
def AliasesOf (sites : List FunctionSite) (blocks : List String) : Prop :=
  List.Forall₂ FunctionSite.HasAlias (sites.filter FunctionSite.isAliased) blocks

theorem AliasesOf.append {as bs : List FunctionSite} {xs ys : List String}
    (ha : AliasesOf as xs) (hb : AliasesOf bs ys) : AliasesOf (as ++ bs) (xs ++ ys) := by
  rw [AliasesOf, List.filter_append]
  exact List.rel_append ha hb

/-- A statement hands on the aliases of its functions. -/
def Stmt.HandsOn (st : Stmt) : Prop :=
  ∀ d s f, st.emit s = .ok f → AliasesOf (st.functions d s) f.prologue

section Bodies

variable {body : List Stmt} (hbody : ∀ st ∈ body, st.HandsOn)

include hbody

/-- A body hands on what its statements do, one after the other. -/
theorem aliasesOf_emitBody (d : Nat) (h : Stmt.emitBody s body = .ok f) :
    AliasesOf (Stmt.bodyFunctions d s body) f.prologue := by
  induction body generalizing f with
  | nil =>
    obtain rfl := Except.ok.inj h
    exact .nil
  | cons st body ih =>
    simp only [Stmt.emitBody, Result.bind_eq_ok, Result.pure_eq_ok] at h
    obtain ⟨a, ha, b, hb, rfl⟩ := h
    rw [List.forall_mem_cons] at hbody
    exact (hbody.1 d s a ha).append (ih hbody.2 hb)

theorem aliasesOf_emitMembers (d : Nat) (h : Stmt.emitMembers s body = .ok f) :
    AliasesOf (Stmt.bodyFunctions d s body) f.prologue := by
  induction body generalizing f with
  | nil =>
    obtain rfl := Except.ok.inj h
    exact .nil
  | cons st body ih =>
    simp only [Stmt.emitMembers] at h
    split at h
    · cases h
    · simp only [Result.bind_eq_ok, Result.pure_eq_ok] at h
      obtain ⟨a, ha, b, hb, rfl⟩ := h
      rw [List.forall_mem_cons] at hbody
      exact (hbody.1 d s a ha).append (ih hbody.2 hb)

end Bodies

theorem aliasesOf_emitChoices {choices : List Choice}
    (hchoices : ∀ test body, Choice.mk test body ∈ choices → ∀ st ∈ body, st.HandsOn) (d : Nat)
    {loc : Option Location} {first : Bool} (h : Stmt.emitChoices s loc first choices = .ok f) :
    AliasesOf (Stmt.choiceFunctions d s choices) f.prologue := by
  induction choices generalizing first f with
  | nil =>
    obtain rfl := Except.ok.inj h
    exact .nil
  | cons c choices ih =>
    obtain ⟨test, body⟩ := c
    simp only [Stmt.emitChoices, Result.bind_eq_ok, Result.pure_eq_ok] at h
    obtain ⟨a, ha, b, hb, rfl⟩ := h
    obtain ⟨t, k, -, -, hk, rfl⟩ := emit_choice ha
    have hfirst := hchoices test body (List.mem_cons_self ..)
    have hrest := fun t b hmem => hchoices t b (List.mem_cons_of_mem _ hmem)
    exact (aliasesOf_emitBody hfirst d hk).append (ih hrest hb)

theorem prologue_emitAssignment {left : Expr} {right : Option Expr} {operator : String}
    {type : Option String} (h : emitAssignment s left right operator type = .ok f) :
    f.prologue = [] := by
  rw [emitAssignment_eq] at h
  obtain ⟨_, -, h⟩ := Result.bind_eq_ok.1 h
  cases right with
  | none =>
    obtain rfl := Except.ok.inj h
    rfl
  | some e =>
    simp only [assignedText, Result.bind_eq_ok, Result.pure_eq_ok] at h
    obtain ⟨_, -, _, -, rfl⟩ := h
    rfl

theorem prologue_emitField {left : Expr} {right : Option Expr} {operator : String}
    {type : Option String} (h : emitField s left right operator type = .ok f) :
    f.prologue = [] := by
  by_cases hfield : IsField left operator
  · obtain ⟨name, splat, loc, rfl, rfl⟩ := hfield
    rw [emitField_eq] at h
    simp only [Result.bind_eq_ok, Result.pure_eq_ok] at h
    obtain ⟨_, -, _, -, rfl⟩ := h
    rfl
  · rw [emitField_refused s hfield] at h
    cases h

theorem prologue_emitReturn {value : Option Expr} (h : emitReturn s value = .ok f) :
    f.prologue = [] := by
  cases value with
  | none =>
    obtain rfl := Except.ok.inj h
    rfl
  | some e =>
    simp only [emitReturn, Result.bind_eq_ok] at h
    obtain ⟨t, -, h⟩ := h
    split at h
    · obtain rfl := Result.pure_eq_ok.1 h
      rfl
    · obtain rfl := Result.pure_eq_ok.1 h
      rfl

theorem prologue_emitRaise {value : Expr} (h : emitRaise s value = .ok f) : f.prologue = [] := by
  simp only [emitRaise, Result.bind_eq_ok] at h
  obtain ⟨t, -, h⟩ := h
  split at h
  · obtain rfl := Result.pure_eq_ok.1 h
    rfl
  · obtain rfl := Result.pure_eq_ok.1 h
    rfl
  · obtain rfl := Result.pure_eq_ok.1 h
    rfl
  · cases h

/-- No functions, no aliases. -/
theorem aliasesOf_nil {blocks : List String} (h : blocks = []) : AliasesOf [] blocks :=
  List.forall₂_nil_left_iff.2 h

/-- **The run.** However deep its functions are, a statement hands on the
aliases of all of them, and no others. -/
theorem Stmt.handsOn (st : Stmt) : st.HandsOn := by
  induction st using Stmt.induction with
  | function name parameters body returnType decorators loc ih =>
    intro d s f h
    obtain ⟨slots, texts, definition, b, returns, hslots, htexts, hb, -, rfl⟩ := emit_function h
    let q : FunctionSite := ⟨d, s, name, parameters, decorators⟩
    -- its own alias comes first
    have hown : AliasesOf [q] definition.toList := (q.lists_of_parameters hslots htexts).2
    exact hown.append (aliasesOf_emitBody ih (d + 1) hb)
  | classDefinition name body arguments decorators loc ih =>
    intro d s f h
    obtain ⟨_, b, -, hb, rfl⟩ := emit_class h
    have hmembers := aliasesOf_emitMembers ih (d + 1) hb
    exact hmembers
  | conditional choices loc ih =>
    intro d s f h
    obtain ⟨c, hc, rfl⟩ := emit_conditional h
    have hchoices := aliasesOf_emitChoices ih (d + 1) hc
    exact hchoices
  | forLoop left right body loc ih =>
    intro d s f h
    obtain ⟨_, _, b, -, -, hb, rfl⟩ := emit_forLoop h
    have hbody := aliasesOf_emitBody ih (d + 1) hb
    exact hbody
  | whileLoop test body loc ih =>
    intro d s f h
    obtain ⟨_, b, -, hb, rfl⟩ := emit_whileLoop h
    have hbody := aliasesOf_emitBody ih (d + 1) hb
    exact hbody
  | expression value =>
    intro d s f h
    simp only [Stmt.emit, Result.bind_eq_ok, Result.pure_eq_ok] at h
    obtain ⟨t, -, rfl⟩ := h
    exact aliasesOf_nil rfl
  | assignment left right operator type loc =>
    intro d s f h
    simp only [Stmt.emit] at h
    split at h
    · exact aliasesOf_nil (prologue_emitField h)
    · exact aliasesOf_nil (prologue_emitAssignment h)
  | returning value loc => exact fun d s f h => aliasesOf_nil (prologue_emitReturn h)
  | raising value loc => exact fun d s f h => aliasesOf_nil (prologue_emitRaise h)
  | simple kind loc =>
    intro d s f h
    obtain rfl := Except.ok.inj h
    cases kind <;> exact aliasesOf_nil rfl
  | comment text loc =>
    intro d s f h
    obtain rfl := Except.ok.inj h
    exact aliasesOf_nil rfl

/-! ## Where functions stand -/

theorem mem_bodyFunctions {q : FunctionSite} {d : Nat} {body : List Stmt} :
    q ∈ Stmt.bodyFunctions d s body ↔ ∃ st ∈ body, q ∈ st.functions d s := by
  induction body with
  | nil => simp [Stmt.bodyFunctions]
  | cons st body ih => simp [Stmt.bodyFunctions, ih]

theorem mem_choiceFunctions {q : FunctionSite} {d : Nat} {choices : List Choice} :
    q ∈ Stmt.choiceFunctions d s choices ↔
      ∃ test body, Choice.mk test body ∈ choices ∧ ∃ st ∈ body, q ∈ st.functions d s := by
  induction choices with
  | nil => simp [Stmt.choiceFunctions]
  | cons c choices ih =>
    obtain ⟨test, body⟩ := c
    simp only [Stmt.choiceFunctions, Choice.functions, List.mem_append, mem_bodyFunctions, ih,
      List.mem_cons, Choice.mk.injEq]
    constructor
    · rintro (h | ⟨t, b, hmem, h⟩)
      · exact ⟨test, body, .inl ⟨rfl, rfl⟩, h⟩
      · exact ⟨t, b, .inr hmem, h⟩
    · rintro ⟨t, b, ⟨rfl, rfl⟩ | hmem, h⟩
      · exact .inl h
      · exact .inr ⟨t, b, hmem, h⟩

/-- **Every function that is listed stands where it says.** -/
theorem holds_of_mem_functions {q : FunctionSite} (st : Stmt) {d : Nat}
    (h : q ∈ st.functions d s) : ∃ k body returnType loc, q.depth = d + k ∧
      st.Holds s k q.scope (.function q.name q.parameters body returnType q.decorators loc) := by
  induction st using Stmt.induction generalizing d s with
  | function name parameters body returnType decorators loc ih =>
    -- the function itself, or one in its body, which is a level deeper
    rcases List.mem_cons.1 h with rfl | h
    · exact ⟨0, body, returnType, loc, rfl, .self⟩
    · obtain ⟨st, hst, h⟩ := mem_bodyFunctions.1 h
      obtain ⟨k, b, r, l, hdepth, hholds⟩ := ih st hst h
      exact ⟨k + 1, b, r, l, by omega, .function hst hholds⟩
  | classDefinition name body arguments decorators loc ih =>
    obtain ⟨st, hst, h⟩ := mem_bodyFunctions.1 h
    obtain ⟨k, b, r, l, hdepth, hholds⟩ := ih st hst h
    exact ⟨k + 1, b, r, l, by omega, .classDefinition hst hholds⟩
  | conditional choices loc ih =>
    obtain ⟨test, body, hc, st, hst, h⟩ := mem_choiceFunctions.1 h
    obtain ⟨k, b, r, l, hdepth, hholds⟩ := ih test body hc st hst h
    exact ⟨k + 1, b, r, l, by omega, .conditional hc hst hholds⟩
  | forLoop left right body loc ih =>
    obtain ⟨st, hst, h⟩ := mem_bodyFunctions.1 h
    obtain ⟨k, b, r, l, hdepth, hholds⟩ := ih st hst h
    exact ⟨k + 1, b, r, l, by omega, .forLoop hst hholds⟩
  | whileLoop test body loc ih =>
    obtain ⟨st, hst, h⟩ := mem_bodyFunctions.1 h
    obtain ⟨k, b, r, l, hdepth, hholds⟩ := ih st hst h
    exact ⟨k + 1, b, r, l, by omega, .whileLoop hst hholds⟩
  | _ => cases h

/-- **No function is left out of the list.** -/
theorem mem_functions_of_holds {st inner : Stmt} {k : Nat} {s' : Scope}
    (h : st.Holds s k s' inner) {name : String} {parameters : List Expr} {body : List Stmt}
    {returnType : Option String} {decorators : List String} {loc : Option Location}
    (hinner : inner = .function name parameters body returnType decorators loc) (d : Nat) :
    ⟨d + k, s', name, parameters, decorators⟩ ∈ st.functions d s := by
  induction h generalizing d with
  | self =>
    subst hinner
    exact List.mem_cons_self ..
  | function hst _ ih =>
    rw [← Nat.add_assoc, Nat.add_right_comm]
    exact List.mem_cons_of_mem _ (mem_bodyFunctions.2 ⟨_, hst, ih hinner (d + 1)⟩)
  | classDefinition hst _ ih =>
    rw [← Nat.add_assoc, Nat.add_right_comm]
    exact mem_bodyFunctions.2 ⟨_, hst, ih hinner (d + 1)⟩
  | conditional hc hst _ ih =>
    rw [← Nat.add_assoc, Nat.add_right_comm]
    exact mem_choiceFunctions.2 ⟨_, _, hc, _, hst, ih hinner (d + 1)⟩
  | forLoop hst _ ih =>
    rw [← Nat.add_assoc, Nat.add_right_comm]
    exact mem_bodyFunctions.2 ⟨_, hst, ih hinner (d + 1)⟩
  | whileLoop hst _ ih =>
    rw [← Nat.add_assoc, Nat.add_right_comm]
    exact mem_bodyFunctions.2 ⟨_, hst, ih hinner (d + 1)⟩

/-- **The list of functions is complete and sound**: it holds the
functions that stand inside the statement, at any depth. -/
theorem mem_functions_iff {q : FunctionSite} {st : Stmt} {d : Nat} :
    q ∈ st.functions d s ↔ ∃ k body returnType loc, q.depth = d + k ∧
      st.Holds s k q.scope (.function q.name q.parameters body returnType q.decorators loc) := by
  constructor
  · exact holds_of_mem_functions st
  · rintro ⟨k, body, returnType, loc, hdepth, hholds⟩
    have hmem := mem_functions_of_holds hholds rfl d
    rwa [← hdepth] at hmem

/-! ## The blocks of a module -/

/-- **The opening lines name the aliases.** Each function of a top-level
statement has its opening line among the lines, and that line names a
type exactly if the function is among those with an alias; the type has
the name of the alias. -/
def Stmt.SignaturesIn (st : Stmt) (lines : List String) : Prop :=
  ∀ (q : FunctionSite) (body : List Stmt) (returnType : Option String) (loc : Option Location),
    st.Holds .top q.depth q.scope
      (.function q.name q.parameters body returnType q.decorators loc) →
    ∃ texts returns type,
      indent q.depth [q.scope.functionHeader q.name q.decorators texts returns]
        <:+: indent 0 lines ∧
      q.Lists texts type ∧
      ∀ n, type = some n ↔
        q ∈ (st.functions 0 .top).filter FunctionSite.isAliased ∧ n = q.aliasName

/-- **The blocks of a top-level statement**: the aliases of the functions
in it, and right behind them its own block, if it has a line. -/
def Stmt.WrittenAs (st : Stmt) (blocks : List String) : Prop :=
  ∃ f aliases, st.emit .top = .ok f ∧ AliasesOf (st.functions 0 .top) aliases ∧
    blocks = aliases.map (fun text => assemble [text])
      ++ (if f.lines = [] then [] else [assemble f.lines]) ∧
    st.SignaturesIn f.lines

theorem Stmt.signaturesIn {st : Stmt} (h : st.emit .top = .ok f) : st.SignaturesIn f.lines := by
  intro q body returnType loc hholds
  obtain ⟨g, hg, hlines⟩ := hholds.infix_lines h
  obtain ⟨slots, texts, definition, b, returns, hslots, htexts, -, -, rfl⟩ := emit_function hg
  refine ⟨texts, returns, _, ?_, (q.lists_of_parameters hslots htexts).1, fun n => ?_⟩
  · -- the opening line stands between the decorators and the body
    refine List.IsInfix.trans ?_ hlines
    rw [indent_append, indent_braced]
    exact List.infix_append_of_infix_right
      (List.infix_append_of_infix_left List.infix_append_left)
  · have hmem : q ∈ st.functions 0 .top :=
      mem_functions_iff.2 ⟨q.depth, body, returnType, loc, (Nat.zero_add _).symm, hholds⟩
    rw [List.mem_filter, and_iff_right hmem]
    cases q.isAliased with
    | true => simp [eq_comm]
    | false => simp

theorem Stmt.writtenAs {st : Stmt} (h : st.emit .top = .ok f) : st.WrittenAs f.blocks := by
  refine ⟨f, f.prologue, h, st.handsOn 0 .top f h, ?_, Stmt.signaturesIn h⟩
  simp only [Fragment.blocks, List.isEmpty_iff]

/-- The blocks of statements come in groups, one for each statement. -/
theorem exists_groups {body : List Stmt} {blocks : List String}
    (h : statementBlocks body = .ok blocks) :
    ∃ groups, List.Forall₂ Stmt.WrittenAs body groups ∧ blocks = groups.flatten := by
  induction body generalizing blocks with
  | nil =>
    obtain rfl := Except.ok.inj h
    exact ⟨[], .nil, rfl⟩
  | cons st body ih =>
    simp only [statementBlocks, Result.bind_eq_ok, Result.pure_eq_ok] at h
    obtain ⟨f, hf, rest, hrest, rfl⟩ := h
    obtain ⟨groups, hgroups, rfl⟩ := ih hrest
    exact ⟨f.blocks :: groups, .cons (Stmt.writtenAs hf) hgroups, rfl⟩

/-- **No options alias is lost, invented or misplaced.** The blocks of a
module are its declarations and then one group of blocks for each
statement, which begins with the aliases of the functions inside it. -/
theorem aliases_placed {p : Program} {blocks : List String} (h : p.blocks = .ok blocks) :
    ∃ groups, List.Forall₂ Stmt.WrittenAs p.body groups ∧
      blocks = declarationBlock p.body ++ groups.flatten := by
  obtain ⟨rest, hrest, rfl⟩ := blocks_eq_ok.1 h
  obtain ⟨groups, hgroups, rfl⟩ := exists_groups hrest
  exact ⟨groups, hgroups, rfl⟩

/-- A method with a typed default and, under a condition in it, a function
with another one. -/
def boxProgram : Program :=
  let one : Expr := .number .integer "1" none
  let log : Stmt := .function "log" [.typedDefaultParameter "k" "int" one none]
    [.simple .pass none] none [] none
  ⟨[.classDefinition "box" [.function "put"
      [.reference "self" none none, .defaultParameter "m" one none,
        .typedDefaultParameter "n" "str" (.null none) none]
      [.whileLoop (.boolean true none) [log] none] none [] none] none [] none], none⟩

/-- The blocks of the program. -/
def boxBlocks : List String :=
  ["type BoxPutOptions = \x7b m?: any, n?: string \x7d",
    "type LogOptions = \x7b k?: number \x7d",
    "class Box \x7b\n  put(\x7b m = 1, n = null \x7d: BoxPutOptions = \x7b\x7d) \x7b\n"
      ++ "    while (true) \x7b\n      function log(\x7b k = 1 \x7d: LogOptions = \x7b\x7d) \x7b\n"
      ++ "      \x7d\n    \x7d\n  \x7d\n\x7d"]

/-- The alias of the method above comes before that of the function in
its body, and both before the class. -/
theorem aliases_placed_box : boxProgram.blocks = .ok boxBlocks ∧
    ∃ groups, List.Forall₂ Stmt.WrittenAs boxProgram.body groups ∧
      boxBlocks = declarationBlock boxProgram.body ++ groups.flatten := by
  have hblocks : boxProgram.blocks = .ok boxBlocks :=
    Result.eq_ok_of_toOption (by decide +kernel)
  exact ⟨hblocks, aliases_placed hblocks⟩

end Scribe
