import Scribe.Emit.Stmt
import Scribe.Proofs.Emit.Assignment
import Scribe.Proofs.Emit.OnePass.Expression

/-!
# Statements in one pass

`Stmt.visit` writes a statement and records the names it binds, in the
frame of the body around it. A function gets a frame with a collection of
its own and declares what was recorded there; a class body has none.

`Stmt.agrees` says that this is writing the statement and then listing
its bindings, and `Program.visit_eq` that a module written in one pass is
the module as it is emitted.
-/

namespace Scribe

open Recording (Writes)

/-! ## The pass -/

/-- Records a name with the type it is annotated with. -/
def Frame.annotate (f : Frame) (left : Expr) (type : Option String) : Recording Unit :=
  match left, type with
  | .reference name _ _, some t =>
    if t.isEmpty then pure () else f.record (Identifier.camel name) (some t)
  | _, _ => pure ()

/-- Writes an assignment outside class bodies. -/
def visitAssignment (f : Frame) (left : Expr) (right : Option Expr) (operator : String)
    (type : Option String) : Recording Fragment := do
  let t ← mappedType type
  f.annotate left t
  match right with
  | none => return .empty
  | some e =>
    let l ← left.visit f.assigning
    let r ← e.visit f.reading
    return .ofLines (statementLines (l ++ " " ++ operator ++ " " ++ r))

/-- Writes the value of a field behind an equals sign, if there is one. -/
def visitFieldValue (f : Frame) (right : Option Expr) : Recording String := do
  match right with
  | none => return ""
  | some e =>
    let v ← e.visit f.reading
    return " = " ++ v

/-- Writes an assignment in a class body. -/
def visitField (f : Frame) (left : Expr) (right : Option Expr) (operator : String)
    (type : Option String) : Recording Fragment := do
  match left, operator with
  | .reference name _ _, "=" =>
    let t ← fieldType type
    let v ← visitFieldValue f right
    return .ofLines (Text.lines (Identifier.property name ++ t ++ v))
  | _, _ => throw (.unsupported left.kind.name NodeKind.classDefinition.name left.loc)

/-- Writes what follows the name of a class in its opening line. -/
def visitExtends (f : Frame) (arguments : Option (List Expr)) : Recording String := do
  match ← keptBases (arguments.getD []) with
  | [] => return ""
  | [base] =>
    let b ← base.visit f.reading
    return " extends " ++ b
  | _ :: second :: _ =>
    throw (.unsupported second.kind.name NodeKind.classDefinition.name second.loc)

/-- Writes the end of a function. -/
def visitReturn (f : Frame) (value : Option Expr) : Recording Fragment := do
  match value with
  | none => return .ofLines ["return"]
  | some e =>
    let t ← e.visit f.reading
    match Text.lines t with
    | [line] => return .ofLines ["return " ++ line]
    | ls => return .ofLines ("return (" :: indent 1 ls ++ [")"])

/-- Writes a thrown error. -/
def visitRaise (f : Frame) (value : Expr) : Recording Fragment := do
  let t ← value.visit f.reading
  match value with
  | .call .. => return .ofLines (Text.lines ("throw new " ++ t))
  | .reference .. => return .ofLines ["throw new " ++ t ++ "()"]
  | .member .. => return .ofLines ["throw new " ++ t ++ "()"]
  | e => throw (.unsupported e.kind.name NodeKind.raiseStatement.name e.loc)

mutual

/-- Writes a statement and records the names it binds. -/
def Stmt.visit (f : Frame) : Stmt → Recording Fragment
  | .expression value => do
    let t ← value.visit f
    return .ofLines (statementLines t)
  | .assignment left right operator type _ =>
    if f.scope.kind = .classBody then visitField f left right operator type
    else visitAssignment f left right operator type
  | .function name parameters body returnType decorators _ => do
    let (receiver, passed) := f.scope.splitParameters decorators parameters
    let slots ← Expr.visitSlots f.reading passed
    let (ps, definition) ← (Signature.ofSlots slots).parameters (some (f.scope.optionsName name))
    let (b, names) ← f.inFunction receiver fun inner => Stmt.visitBody inner body
    let returns ← returnsText (f.scope.isConstructor name) returnType
    let lets := (names.filter
      (!(boundNames passed ++ declaredNames body).contains ·.1)).map declaration
    return ⟨decoratorLines decorators
      ++ braced (f.scope.functionHeader name decorators ps returns) (lets ++ b.lines),
      definition.toList ++ b.prologue⟩
  | .classDefinition name body arguments decorators _ => do
    let base ← visitExtends f arguments
    let b ← Stmt.visitMembers (f.enterClass name) body
    return ⟨decoratorLines decorators
      ++ braced ("class " ++ Identifier.pascal name ++ base ++ " \x7b") b.lines, b.prologue⟩
  | .conditional choices loc => do
    let c ← Stmt.visitChoices f loc true choices
    return ⟨c.lines ++ ["\x7d"], c.prologue⟩
  | .forLoop left right body _ => do
    let l ← left.visit f.assigning
    let r ← right.visit f.reading
    let b ← Stmt.visitBody f body
    return ⟨braced ("for (" ++ l ++ " of " ++ r ++ ") \x7b") b.lines, b.prologue⟩
  | .whileLoop test body _ => do
    let t ← test.visit f.reading
    let b ← Stmt.visitBody f body
    return ⟨braced ("while (" ++ t ++ ") \x7b") b.lines, b.prologue⟩
  | .returning value _ => visitReturn f value
  | .raising value _ => visitRaise f value
  | .simple kind _ => return kind.fragment
  | .comment text _ => return .ofLines (Literal.commentLines text)

/-- Writes the statements of a body. -/
def Stmt.visitBody (f : Frame) : List Stmt → Recording Fragment
  | [] => return .empty
  | st :: sts => do
    let a ← st.visit f
    let b ← Stmt.visitBody f sts
    return a ++ b

/-- Writes the members of a class. -/
def Stmt.visitMembers (f : Frame) : List Stmt → Recording Fragment
  | [] => return .empty
  | st :: sts =>
    if !st.isMember then
      throw (.unsupported st.kind.name NodeKind.classDefinition.name st.loc)
    else do
      let a ← st.visit f
      let b ← Stmt.visitMembers f sts
      return a ++ b

/-- Writes the choices of a conditional at `loc`. -/
def Stmt.visitChoices (f : Frame) (loc : Option Location) (first : Bool) :
    List Choice → Recording Fragment
  | [] => return .empty
  | c :: cs => do
    let a ← c.visit f loc first cs.isEmpty
    let b ← Stmt.visitChoices f loc false cs
    return a ++ b

/-- Writes a choice. -/
def Choice.visit (f : Frame) (loc : Option Location) (first last : Bool) :
    Choice → Recording Fragment
  | .mk test body => do
    if test.isNone && (first || !last) then
      throw (.unsupported NodeKind.ifStatement.name NodeKind.ifStatement.name loc)
    let t ← Expr.visitOption f.reading test
    let b ← Stmt.visitBody f body
    return ⟨choiceOpening first t :: indent 1 b.lines, b.prologue⟩

end

/-- Writes top-level statements, and puts their blocks in a row. -/
def visitBlocks (f : Frame) : List Stmt → Recording (List String)
  | [] => return []
  | st :: sts => do
    let a ← st.visit f
    let rest ← visitBlocks f sts
    return a.blocks ++ rest

/-- The blocks of a module, written in one pass. -/
def Program.visit (p : Program) : Result (List String) := do
  let start := Frames.start true
  let (blocks, collections) ← visitBlocks start.innermost p.body start.collections
  let names := collections.getD 0 []
  let lets := (names.filter (!(declaredNames p.body).contains ·.1)).map declaration
  return (if lets.isEmpty then [] else [Text.unlines lets]) ++ blocks

/-! ## Assignments -/

variable {f : Frame} {left : Expr} {right : Option Expr} {operator : String}
  {type : Option String}

/-- The type that annotates is the one denoted, unless that is empty. -/
theorem annotatedType_eq {t : Option String} (ht : mappedType type = .ok t) :
    annotatedType type = t.filter (!·.isEmpty) := by
  unfold mappedType at ht
  unfold annotatedType
  cases type with
  | none =>
    obtain rfl := Except.ok.inj ht
    rfl
  | some spelling =>
    by_cases hempty : spelling.isEmpty = true
    · simp only [if_pos hempty] at ht ⊢
      obtain rfl := Except.ok.inj ht
      rfl
    · simp only [if_neg hempty, Result.bind_eq_ok, Result.pure_eq_ok] at ht ⊢
      obtain ⟨u, hu, rfl⟩ := ht
      rw [hu]
      cases hu' : u.isEmpty <;> simp [hu', Option.filter]

/-- What an annotation denotes is what it binds its name to. -/
theorem writes_annotate (f : Frame) (left : Expr) {t : Option String}
    (ht : mappedType type = .ok t) :
    Writes f.names (f.annotate left t) (.ok ()) (annotationBinding left type) := by
  unfold annotationBinding Frame.annotate
  rw [annotatedType_eq ht]
  cases t with
  | none => cases left <;> exact .pure ()
  | some u =>
    cases hu : u.isEmpty with
    | true =>
      rw [Option.filter_some, if_neg (by simp [hu])]
      cases left with
      | reference name splat loc =>
        simp only [hu, if_true]
        exact .pure ()
      | _ => exact .pure ()
    | false =>
      rw [Option.filter_some, if_pos (by simp [hu])]
      cases left with
      | reference name splat loc =>
        simp only [hu, Bool.false_eq_true, if_false]
        exact .record f _ _
      | _ => exact .pure ()

/-- Outside class bodies an annotated name is recorded first, and then what
the value records. -/
theorem writes_visitAssignment : Writes f.names (visitAssignment f left right operator type)
    (emitAssignment f.scope left right operator type)
    (annotationBinding left type ++ match right with
      | some _ => left.targets f.scope.receiver
      | none => []) := by
  unfold visitAssignment
  rw [emitAssignment_eq]
  refine (Writes.lift _).silent fun t ht => (writes_annotate f left ht).after ?_
  cases right with
  | none => exact .pure _
  | some e => exact (left.agrees f.assigning).last fun l _ => e.agrees.reads.shaped _

/-- The value of a field is read. -/
theorem writes_visitFieldValue :
    Writes f.names (visitFieldValue f right) (fieldValue f.scope right) [] := by
  cases right with
  | none => exact .pure ""
  | some e => exact e.agrees.reads.map _

/-- A field binds nothing: its annotation is written behind its name. -/
theorem writes_visitField (f : Frame) (left : Expr) (right : Option Expr) (operator : String)
    (type : Option String) : Writes f.names (visitField f left right operator type)
      (emitField f.scope left right operator type) [] := by
  by_cases hfield : IsField left operator
  · obtain ⟨name, splat, loc, rfl, rfl⟩ := hfield
    rw [emitField_eq]
    exact (Writes.lift _).silent fun t _ => writes_visitFieldValue.shaped _
  · rw [emitField_refused f.scope hfield]
    unfold visitField
    split
    · exact absurd ⟨_, _, _, rfl, rfl⟩ hfield
    · exact .refused fun _ => rfl

/-! ## Other statements -/

theorem writes_visitExtends (arguments : Option (List Expr)) :
    Writes f.names (visitExtends f arguments) (extendsText f.scope arguments) [] := by
  unfold visitExtends extendsText
  refine (Writes.lift _).silent fun kept _ => ?_
  match kept with
  | [] => exact .pure _
  | [base] => exact base.agrees.reads.shaped _
  | _ :: _ :: _ => exact .refused fun _ => rfl

theorem writes_visitReturn (value : Option Expr) :
    Writes f.names (visitReturn f value) (emitReturn f.scope value) [] := by
  cases value with
  | none => exact .pure _
  | some e =>
    refine e.agrees.reads.silent fun t _ => ?_
    generalize Text.lines t = ls
    match ls with
    | [] => exact .pure _
    | [_] => exact .pure _
    | _ :: _ :: _ => exact .pure _

theorem writes_visitRaise (value : Expr) :
    Writes f.names (visitRaise f value) (emitRaise f.scope value) [] := by
  refine value.agrees.reads.silent fun t _ => ?_
  cases value with
  | call callee arguments loc => exact .pure _
  | reference name splat loc => exact .pure _
  | member object property loc => exact .pure _
  | _ => exact .refused fun _ => rfl

/-! ## Bodies -/

/-- **The frame of a body**: nothing is being assigned to, and a class
body records nothing. -/
structure Frame.IsBody (f : Frame) : Prop where
  reading : f.scope.target = false
  fields : f.scope.kind = .classBody → f.names = none

/-- **The pass agrees with the emitter on the statement**, in the frame of
every body: it writes what is written and records what is bound. -/
def Stmt.Agrees (st : Stmt) : Prop :=
  ∀ f : Frame, f.IsBody →
    Writes f.names (st.visit f) (st.emit f.scope) (st.bindings f.scope.receiver)

variable {body : List Stmt}

theorem Frame.isBody_top (names : Option Nat) : IsBody ⟨.top, names⟩ :=
  ⟨rfl, by rintro ⟨⟩⟩

theorem Frame.isBody_function (s : Scope) (receiver : Option String) (names : Option Nat) :
    IsBody ⟨s.enterFunction receiver, names⟩ :=
  ⟨rfl, by rintro ⟨⟩⟩

theorem Frame.isBody_class (f : Frame) (name : String) : (f.enterClass name).IsBody :=
  ⟨rfl, fun _ => rfl⟩

/-- A body is written statement by statement, and records the names of each in
order. -/
theorem writes_visitBody (hf : f.IsBody) (h : ∀ st ∈ body, st.Agrees) :
    Writes f.names (Stmt.visitBody f body) (Stmt.emitBody f.scope body)
      (Stmt.bodyBindings f.scope.receiver body) := by
  induction body with
  | nil => exact .pure _
  | cons st body ih =>
    rw [Stmt.visitBody, Stmt.emitBody, Stmt.bodyBindings]
    have hbody := ih fun b hb => h b (List.mem_cons_of_mem _ hb)
    exact (h st (List.mem_cons_self ..) f hf).bind fun a _ => hbody.shaped _

/-- Members are written one after another, up to the first statement that is
none. -/
theorem writes_visitMembers (hf : f.IsBody) (h : ∀ st ∈ body, st.Agrees) :
    Writes f.names (Stmt.visitMembers f body) (Stmt.emitMembers f.scope body)
      (Stmt.bodyBindings f.scope.receiver body) := by
  induction body with
  | nil => exact .pure _
  | cons st body ih =>
    rw [Stmt.visitMembers, Stmt.emitMembers, Stmt.bodyBindings]
    have hbody := ih fun b hb => h b (List.mem_cons_of_mem _ hb)
    split
    · exact .refused fun _ => rfl
    · exact (h st (List.mem_cons_self ..) f hf).bind fun a _ => hbody.shaped _

/-- The choices of a conditional share the frame, since a block is no scope.
-/
theorem writes_visitChoices {choices : List Choice} (hf : f.IsBody)
    (h : ∀ test body, Choice.mk test body ∈ choices → ∀ st ∈ body, st.Agrees)
    (loc : Option Location) (first : Bool) :
    Writes f.names (Stmt.visitChoices f loc first choices)
      (Stmt.emitChoices f.scope loc first choices)
      (Stmt.choiceBindings f.scope.receiver choices) := by
  induction choices generalizing first with
  | nil => exact .pure _
  | cons c choices ih =>
    obtain ⟨test, body⟩ := c
    have hbody := h test body (List.mem_cons_self ..)
    have hrest := ih (fun test body hmem => h test body (List.mem_cons_of_mem _ hmem)) false
    rw [Stmt.visitChoices, Stmt.emitChoices, Stmt.choiceBindings, Choice.visit, Choice.emit,
      Choice.bindings]
    refine Writes.bind ?_ fun a _ => hrest.shaped _
    split
    · exact .refused fun _ => rfl
    · exact (writes_visitOption fun e _ => e.agrees).silent fun t _ =>
        (writes_visitBody hf hbody).shaped _

/-! ## Statements -/

/-- **The pass agrees with the emitter on every statement.** -/
theorem Stmt.agrees (st : Stmt) : st.Agrees := by
  induction st using Stmt.induction with
  | expression value =>
    intro f hf
    have hvalue := value.agrees f
    rw [Scope.recording, hf.reading] at hvalue
    rw [Stmt.visit, Stmt.emit]
    exact hvalue.shaped _
  | assignment left right operator type loc =>
    intro f hf
    rw [Stmt.visit, Stmt.emit]
    split
    · rename_i hclass
      have hfield := writes_visitField f left right operator type
      -- there is no collection, so it does not matter what the field would bind
      rw [hf.fields hclass] at hfield ⊢
      exact hfield
    · exact writes_visitAssignment
  | function name parameters body returnType decorators loc ih =>
    intro f hf
    rw [Stmt.visit, Stmt.emit]
    generalize f.scope.splitParameters decorators parameters = split
    have hbody : ∀ i, Writes (some i)
        (Stmt.visitBody ⟨f.scope.enterFunction split.1, some i⟩ body)
        (Stmt.emitBody (f.scope.enterFunction split.1) body)
        (Stmt.bodyBindings split.1 body) := fun i =>
      writes_visitBody (Frame.isBody_function f.scope split.1 (some i)) ih
    exact (writes_visitSlots fun e _ => e.agrees).silent fun slots _ =>
      (Writes.lift _).silent fun ps _ => .inFunction hbody fun b _ => (Writes.lift _).shaped _
  | classDefinition name body arguments decorators loc ih =>
    intro f hf
    rw [Stmt.visit, Stmt.emit]
    have hmembers := writes_visitMembers (f.isBody_class name) ih
    exact (writes_visitExtends arguments).silent fun base _ => hmembers.of_none.shaped _
  | conditional choices loc ih =>
    intro f hf
    rw [Stmt.visit, Stmt.emit, Stmt.bindings]
    exact (writes_visitChoices hf ih loc true).shaped _
  | forLoop left right body loc ih =>
    intro f hf
    rw [Stmt.visit, Stmt.emit, Stmt.bindings]
    exact (left.agrees f.assigning).bind fun l _ => right.agrees.reads.silent fun r _ =>
      (writes_visitBody hf ih).shaped _
  | whileLoop test body loc ih =>
    intro f hf
    rw [Stmt.visit, Stmt.emit, Stmt.bindings]
    exact test.agrees.reads.silent fun t _ => (writes_visitBody hf ih).shaped _
  | returning value loc => exact fun f hf => writes_visitReturn value
  | raising value loc => exact fun f hf => writes_visitRaise value
  | simple kind loc => exact fun f hf => .pure _
  | comment text loc => exact fun f hf => .pure _

/-! ## Modules -/

/-- The blocks of a module are those of its statements. -/
theorem writes_visitBlocks (names : Option Nat) (body : List Stmt) :
    Writes names (visitBlocks ⟨.top, names⟩ body) (statementBlocks body)
      (Stmt.bodyBindings none body) := by
  induction body with
  | nil => exact .pure _
  | cons st body ih =>
    rw [visitBlocks, statementBlocks, Stmt.bodyBindings]
    exact (st.agrees _ (Frame.isBody_top names)).bind fun a _ => ih.shaped _

theorem declarationBlock_eq (body : List Stmt) : declarationBlock body =
    if (declarations none (declaredNames body) body).isEmpty then []
    else [Text.unlines (declarations none (declaredNames body) body)] := by
  unfold declarationBlock
  cases declarations none (declaredNames body) body <;> rfl

/-- **One pass writes what the emitter writes.** -/
theorem Program.visit_eq (p : Program) : p.visit = p.blocks := by
  obtain ⟨made, hrun⟩ := writes_visitBlocks (some 0) p.body [[]] (by simp [Live])
  unfold Program.visit Program.blocks
  change (visitBlocks ⟨.top, some 0⟩ p.body [[]] >>= _) = _
  rw [hrun, declarationBlock_eq]
  cases statementBlocks p.body <;> rfl

end Scribe
