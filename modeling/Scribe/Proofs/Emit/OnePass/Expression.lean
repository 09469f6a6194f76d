import Scribe.Emit.Expr
import Scribe.Proofs.Emit.OnePass.Recording
import Scribe.Proofs.Emit.Parts

/-!
# Expressions in one pass

`Expr.visit` writes an expression and records, on the way, every name
that is assigned to. `Expr.agrees` says that this is writing it and then
listing its targets: the text does not depend on the collections, and
what is recorded does not depend on the text.
-/

namespace Scribe

open Recording (Writes)

/-! ## The pass -/

mutual

/-- Writes an expression and records the names it assigns to. -/
def Expr.visit (f : Frame) : Expr → Recording String
  | .reference name (some _) _ => return "..." ++ Identifier.camel name
  | .reference name none _ =>
    if f.scope.receiver = some name then return "this"
    else do
      if f.scope.target then f.record (Identifier.camel name) none
      return Identifier.camel name
  | .defaultParameter name value _ => do
    let v ← value.visit f
    return Identifier.camel name ++ " = " ++ v
  | .typedParameter name type splat _ =>
    match splat with
    | none => do
      let t ← typeName type
      return Identifier.camel name ++ ": " ++ t
    | some .list => do
      let t ← typeName type
      return "..." ++ Identifier.camel name ++ ": Array<" ++ t ++ ">"
    | some .dictionary => return "..." ++ Identifier.camel name
  | .typedDefaultParameter name _ value _ => do
    let v ← value.visit f
    return Identifier.camel name ++ " = " ++ v
  | .call callee arguments _ => do
    let c ← if callee.isSuperConstructor then pure "super" else callee.visit f.reading
    let as ← Expr.visitAll f.reading arguments
    return c ++ "(" ++ ", ".intercalate (argumentList (arguments.zip as)) ++ ")"
  | .keywordArgument name value _ => do
    let v ← value.visit f
    return Identifier.property name ++ ": " ++ v
  | .member object property _ => do
    let o ← if object.isSuperCall then pure "super" else object.visit f.reading
    let p ← match property with
      | .reference name _ _ => pure (Identifier.property name)
      | e => e.visit f.reading
    return o ++ "." ++ p
  | .subscript value (.slice start stop step loc) _ => do
    let v ← value.visit f.reading
    if step.isSome || f.scope.target then
      throw (.unsupported NodeKind.slice.name NodeKind.subscript.name loc)
    let a ← Expr.visitOption f.reading start
    let b ← Expr.visitOption f.reading stop
    return v ++ ".slice(" ++ ", ".intercalate (sliceBounds a b) ++ ")"
  | .subscript value index _ => do
    let v ← value.visit f.reading
    let i ← index.visit f.reading
    return v ++ "[" ++ i ++ "]"
  | .slice _ _ _ loc => throw (.unsupported NodeKind.slice.name "expression" loc)
  | .binary left op right _ => do
    let l ← left.visit f.reading
    let r ← right.visit f.reading
    return binaryText op l r
  | .not operand _ => do
    let e ← operand.visit f.reading
    return "!" ++ e
  | .unary op operand _ => do
    let e ← operand.visit f.reading
    return op.spelling ++ e
  | .conditional test consequence alternative _ => do
    let t ← test.visit f.reading
    let c ← consequence.visit f.reading
    let a ← alternative.visit f.reading
    return t ++ " ? " ++ c ++ " : " ++ a
  | .parenthesized inner _ => do
    let e ← inner.visit f.reading
    return "(" ++ e ++ ")"
  | .lambda parameters body _ => do
    let slots ← Expr.visitSlots f.reading parameters
    let (ps, _) ← (Signature.ofSlots slots).parameters none
    let b ← body.visit f.reading
    return lambdaText ps b
  | .string text _ => return Literal.written text
  | .number _ text _ => return text
  | .boolean value _ => return if value then "true" else "false"
  | .null _ => return "null"
  | .sequence _ items _ => do
    let is ← Expr.visitItems f items
    return "[" ++ ", ".intercalate is ++ "]"
  | .dictionary entries _ => do
    let es ← Expr.visitAll f.reading entries
    return dictionaryText es
  | .pair key value _ => do
    let k ← key.visit f
    let v ← value.visit f
    return (if key.isPlainKey then k else "[" ++ k ++ "]") ++ ": " ++ v

/-- Writes expressions one after another. -/
def Expr.visitAll (f : Frame) : List Expr → Recording (List String)
  | [] => return []
  | e :: es => do
    let t ← e.visit f
    let ts ← Expr.visitAll f es
    return t :: ts

/-- Writes an optional expression. -/
def Expr.visitOption (f : Frame) : Option Expr → Recording (Option String)
  | none => return none
  | some e => do
    let t ← e.visit f
    return some t

/-- Writes the items of a sequence; a missing one is empty. -/
def Expr.visitItems (f : Frame) : List (Option Expr) → Recording (List String)
  | [] => return []
  | i :: is => do
    let t ← Expr.visitOption f i
    let ts ← Expr.visitItems f is
    return t.getD "" :: ts

/-- Writes parameters, and says how they are passed. -/
def Expr.visitSlots (f : Frame) : List Expr → Recording (List Slot)
  | [] => return []
  | p :: ps => do
    let t ← p.visit f
    let slot ← Slot.ofParameter t p
    let slots ← Expr.visitSlots f ps
    return slot :: slots

end

/-! ## Lists of expressions -/

/-- What is recorded of bindings in the scope: all of them under an
assignment, and none where something is read. -/
def Scope.recording (s : Scope) (bs : List Binding) : List Binding :=
  if s.target then bs else []

theorem Scope.recording_nil (s : Scope) : s.recording [] = [] :=
  ite_self _

theorem Scope.recording_append (s : Scope) (bs bs' : List Binding) :
    s.recording (bs ++ bs') = s.recording bs ++ s.recording bs' := by
  unfold Scope.recording
  split <;> rfl

/-- **The pass agrees with the emitter on the expression**, in every
frame: it writes what is written and records what is bound. -/
def Expr.Agrees (e : Expr) : Prop :=
  ∀ f : Frame, Writes f.names (e.visit f) (e.emit f.scope)
    (f.scope.recording (e.targets f.scope.receiver))

variable {f : Frame} {e : Expr} {es : List Expr}

/-- What is read records nothing. -/
theorem Expr.Agrees.reads (h : e.Agrees) :
    Writes f.names (e.visit f.reading) (e.emit f.scope.reading) [] :=
  h f.reading

/-- Expressions that are read are written one by one, and nothing is recorded.
-/
theorem writes_visitAll (h : ∀ e ∈ es, e.Agrees) :
    Writes f.names (Expr.visitAll f.reading es) (Expr.emitAll f.scope.reading es) [] := by
  induction es with
  | nil => exact .pure []
  | cons e es ih =>
    rw [Expr.visitAll, Expr.emitAll]
    have hes := ih fun c hc => h c (List.mem_cons_of_mem _ hc)
    exact (h e (List.mem_cons_self ..)).reads.silent fun t _ => hes.shaped _

theorem writes_visitOption {o : Option Expr} (h : ∀ e ∈ o, e.Agrees) :
    Writes f.names (Expr.visitOption f.reading o) (Expr.emitOption f.scope.reading o) [] := by
  cases o with
  | none => exact .pure none
  | some e =>
    rw [Expr.visitOption, Expr.emitOption]
    exact (h e rfl).reads.shaped _

theorem writes_visitSlots (h : ∀ e ∈ es, e.Agrees) :
    Writes f.names (Expr.visitSlots f.reading es) (Expr.emitSlots f.scope.reading es) [] := by
  induction es with
  | nil => exact .pure []
  | cons e es ih =>
    rw [Expr.visitSlots, Expr.emitSlots]
    have hes := ih fun c hc => h c (List.mem_cons_of_mem _ hc)
    exact (h e (List.mem_cons_self ..)).reads.silent fun t _ => (Writes.lift _).silent fun slot _ =>
      hes.shaped _

/-- The items of a sequence are assigned to with it. -/
theorem writes_visitItems {is : List (Option Expr)} (h : ∀ e, some e ∈ is → e.Agrees) :
    Writes f.names (Expr.visitItems f is) (Expr.emitItems f.scope is)
      (f.scope.recording (Expr.itemTargets f.scope.receiver is)) := by
  induction is with
  | nil =>
    rw [Expr.itemTargets, Scope.recording_nil]
    exact .pure []
  | cons i is ih =>
    have hrest := ih fun e he => h e (List.mem_cons_of_mem _ he)
    rw [Expr.visitItems, Expr.emitItems, Expr.itemTargets, Scope.recording_append]
    refine Writes.bind ?_ fun t _ => hrest.shaped _
    cases i with
    | none =>
      rw [Expr.optionTargets, Scope.recording_nil]
      exact .pure none
    | some e => exact (h e (List.mem_cons_self ..) f).shaped _

/-! ## Expressions -/

/-- A name is recorded under an assignment, unless it is starred or the
receiver. -/
theorem agrees_reference (name : String) (splat : Option Splat) (loc : Option Location) :
    (Expr.reference name splat loc).Agrees := by
  intro f
  cases splat with
  | some _ =>
    rw [Expr.targets.eq_def, Scope.recording_nil]
    exact .pure _
  | none =>
    rw [Expr.visit, Expr.emit, Expr.targets]
    by_cases hreceiver : f.scope.receiver = some name
    · rw [if_pos hreceiver, if_pos hreceiver, if_pos hreceiver, Scope.recording_nil]
      exact .pure _
    · rw [if_neg hreceiver, if_neg hreceiver, if_neg hreceiver, Scope.recording]
      split
      · exact (Writes.record f _ none).shaped fun _ => Identifier.camel name
      · exact .pure _

/-- Most expressions pass no assignment on to their parts. -/
theorem Expr.Agrees.of_reading (htargets : ∀ receiver, e.targets receiver = [])
    (h : ∀ f : Frame, Writes f.names (e.visit f) (e.emit f.scope) []) : e.Agrees := by
  intro f
  rw [htargets, Scope.recording_nil]
  exact h f

/-- What is indexed with anything but a slice. -/
theorem agrees_indexed {value index : Expr} (hvalue : value.Agrees) (hindex : index.Agrees)
    (hslice : ∀ start stop step loc, index ≠ .slice start stop step loc)
    (loc : Option Location) : (Expr.subscript value index loc).Agrees := by
  refine .of_reading (fun _ => rfl) fun f => ?_
  rw [Expr.visit, Expr.emit]
  · exact hvalue.reads.silent fun v _ => hindex.reads.shaped _
  all_goals exact hslice

/-- What a slice is taken from. -/
theorem agrees_sliced {value : Expr} {start stop step : Option Expr} (hvalue : value.Agrees)
    (hstart : ∀ e ∈ start, e.Agrees) (hstop : ∀ e ∈ stop, e.Agrees)
    (loc loc' : Option Location) :
    (Expr.subscript value (.slice start stop step loc) loc').Agrees := by
  refine .of_reading (fun _ => rfl) fun f => ?_
  rw [Expr.visit, Expr.emit]
  refine hvalue.reads.silent fun v _ => ?_
  split
  · exact .refused fun _ => rfl
  · exact (writes_visitOption hstart).silent fun a _ => (writes_visitOption hstop).shaped _

/-- A call is read, also under an assignment. -/
theorem agrees_call {callee : Expr} {arguments : List Expr} (hcallee : callee.Agrees)
    (harguments : ∀ a ∈ arguments, a.Agrees) (loc : Option Location) :
    (Expr.call callee arguments loc).Agrees := by
  refine .of_reading (fun _ => rfl) fun f => ?_
  rw [Expr.visit, Expr.emit]
  split
  · exact (Writes.pure "super").silent fun c _ => (writes_visitAll harguments).shaped _
  · exact hcallee.reads.silent fun c _ => (writes_visitAll harguments).shaped _

theorem agrees_member {object property : Expr} (hobject : object.Agrees)
    (hproperty : property.Agrees) (loc : Option Location) :
    (Expr.member object property loc).Agrees := by
  refine .of_reading (fun _ => rfl) fun f => ?_
  rw [Expr.visit, Expr.emit]
  split
  · refine (Writes.pure "super").silent fun o _ => ?_
    cases property with
    | reference name splat loc' => exact (Writes.pure (Identifier.property name)).shaped _
    | _ => exact hproperty.reads.shaped _
  · refine hobject.reads.silent fun o _ => ?_
    cases property with
    | reference name splat loc' => exact (Writes.pure (Identifier.property name)).shaped _
    | _ => exact hproperty.reads.shaped _

/-- **The pass agrees with the emitter on every expression.** -/
theorem Expr.agrees (e : Expr) : e.Agrees := by
  -- a slice is not written itself, so its bounds are carried along for what is indexed with it
  refine (?_ : e.Agrees ∧ ∀ c ∈ e.children, c.Agrees).1
  induction e using Expr.induction_children with
  | step e ih =>
  have hchildren : ∀ c ∈ e.children, c.Agrees := fun c hc => (ih c hc).1
  refine ⟨?_, hchildren⟩
  cases e with
  | reference name splat loc => exact agrees_reference name splat loc
  | defaultParameter name value loc =>
    have hvalue := hchildren value (List.mem_singleton_self _)
    intro f
    rw [Expr.visit, Expr.emit, Expr.targets]
    exact (hvalue f).shaped _
  | typedParameter name type splat loc =>
    refine .of_reading (fun _ => rfl) fun f => ?_
    rcases splat with - | - | -
    · exact (Writes.lift (typeName type)).shaped _
    · exact (Writes.lift (typeName type)).shaped _
    · exact .pure _
  | typedDefaultParameter name type value loc =>
    have hvalue := hchildren value (List.mem_singleton_self _)
    intro f
    rw [Expr.visit, Expr.emit, Expr.targets]
    exact (hvalue f).shaped _
  | call callee arguments loc =>
    obtain ⟨hcallee, harguments⟩ := List.forall_mem_cons.1 hchildren
    exact agrees_call hcallee harguments loc
  | keywordArgument name value loc =>
    have hvalue := hchildren value (List.mem_singleton_self _)
    intro f
    rw [Expr.visit, Expr.emit, Expr.targets]
    exact (hvalue f).shaped _
  | member object property loc =>
    obtain ⟨hobject, hrest⟩ := List.forall_mem_cons.1 hchildren
    exact agrees_member hobject (hrest property (List.mem_singleton_self _)) loc
  | subscript value index loc =>
    obtain ⟨hvalue, hrest⟩ := List.forall_mem_cons.1 hchildren
    have hindex := hrest index (List.mem_singleton_self _)
    by_cases hslice : ∃ start stop step loc', index = .slice start stop step loc'
    · obtain ⟨start, stop, step, loc', rfl⟩ := hslice
      have hbounds := (ih (.slice start stop step loc') (by simp [Expr.children])).2
      refine agrees_sliced hvalue (fun e he => hbounds e ?_) (fun e he => hbounds e ?_) loc' loc
      · simp [Expr.children, Option.mem_def.1 he]
      · simp [Expr.children, Option.mem_def.1 he]
    · exact agrees_indexed hvalue hindex
        (fun start stop step loc' h => hslice ⟨start, stop, step, loc', h⟩) loc
  | slice start stop step loc => exact .of_reading (fun _ => rfl) fun f => .refused fun _ => rfl
  | binary left op right loc =>
    obtain ⟨hleft, hrest⟩ := List.forall_mem_cons.1 hchildren
    have hright := hrest right (List.mem_singleton_self _)
    refine .of_reading (fun _ => rfl) fun f => ?_
    rw [Expr.visit, Expr.emit]
    exact hleft.reads.silent fun l _ => hright.reads.shaped _
  | not operand loc =>
    have hoperand := hchildren operand (List.mem_singleton_self _)
    refine .of_reading (fun _ => rfl) fun f => ?_
    rw [Expr.visit, Expr.emit]
    exact hoperand.reads.shaped _
  | unary op operand loc =>
    have hoperand := hchildren operand (List.mem_singleton_self _)
    refine .of_reading (fun _ => rfl) fun f => ?_
    rw [Expr.visit, Expr.emit]
    exact hoperand.reads.shaped _
  | conditional test consequence alternative loc =>
    obtain ⟨htest, hrest⟩ := List.forall_mem_cons.1 hchildren
    obtain ⟨hconsequence, hrest⟩ := List.forall_mem_cons.1 hrest
    have halternative := hrest alternative (List.mem_singleton_self _)
    refine .of_reading (fun _ => rfl) fun f => ?_
    rw [Expr.visit, Expr.emit]
    exact htest.reads.silent fun t _ => hconsequence.reads.silent fun c _ =>
      halternative.reads.shaped _
  | parenthesized inner loc =>
    have hinner := hchildren inner (List.mem_singleton_self _)
    refine .of_reading (fun _ => rfl) fun f => ?_
    rw [Expr.visit, Expr.emit]
    exact hinner.reads.shaped _
  | lambda parameters body loc =>
    obtain ⟨hparameters, hbody⟩ := List.forall_mem_append.1 hchildren
    refine .of_reading (fun _ => rfl) fun f => ?_
    rw [Expr.visit, Expr.emit]
    exact (writes_visitSlots hparameters).silent fun slots _ => (Writes.lift _).silent fun ps _ =>
      (hbody body (List.mem_singleton_self _)).reads.shaped _
  | string text loc => exact .of_reading (fun _ => rfl) fun f => .pure _
  | number kind text loc => exact .of_reading (fun _ => rfl) fun f => .pure _
  | boolean value loc => exact .of_reading (fun _ => rfl) fun f => .pure _
  | null loc => exact .of_reading (fun _ => rfl) fun f => .pure _
  | sequence kind items loc =>
    have hitems : ∀ e, some e ∈ items → e.Agrees := fun e he =>
      hchildren e (List.mem_filterMap.2 ⟨some e, he, rfl⟩)
    intro f
    rw [Expr.visit, Expr.emit, Expr.targets]
    exact (writes_visitItems hitems).shaped _
  | dictionary entries loc =>
    refine .of_reading (fun _ => rfl) fun f => ?_
    rw [Expr.visit, Expr.emit]
    exact (writes_visitAll hchildren).shaped _
  | pair key value loc =>
    obtain ⟨hkey, hrest⟩ := List.forall_mem_cons.1 hchildren
    have hvalue := hrest value (List.mem_singleton_self _)
    intro f
    rw [Expr.visit, Expr.emit, Expr.targets, Scope.recording_append]
    exact (hkey f).bind fun k _ => (hvalue f).shaped _

end Scribe
