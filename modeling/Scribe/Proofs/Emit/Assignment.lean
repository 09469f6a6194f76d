import Scribe.Emit.Stmt

/-!
# Assignments step by step

An assignment is written in two steps: its annotation is mapped to a
type, and then its sides are written. Outside class bodies the type is
only checked here, and becomes part of a declaration; in a class body it
stands between the name and the value.

`emitAssignment_eq` and `emitField_eq` say this as equations, so that
proofs about assignments need not look at how the steps are interleaved.
-/

namespace Scribe

variable {left : Expr} {right : Option Expr} {operator : String} {type : Option String}

/-- The type that an annotation denotes, if there is one. -/
def mappedType (type : Option String) : Result (Option String) :=
  match type with
  | none => .ok none
  | some spelling =>
    if spelling.isEmpty then .ok none
    else do
      let t ← typeName spelling
      return some t

/-- The two sides of an assignment; without a value it has no text. -/
def assignedText (s : Scope) (left : Expr) (right : Option Expr) (operator : String) :
    Result Fragment := do
  match right with
  | none => return .empty
  | some e =>
    let l ← left.emit s.assigning
    let r ← e.emit s.reading
    return .ofLines (statementLines (l ++ " " ++ operator ++ " " ++ r))

/-- The type of a field behind a colon, if there is one. -/
def fieldType (type : Option String) : Result String :=
  match type with
  | none => .ok ""
  | some spelling =>
    if spelling.isEmpty then .ok ""
    else (typeName spelling).map (": " ++ ·)

/-- The value of a field behind an equals sign, if there is one. -/
def fieldValue (s : Scope) (right : Option Expr) : Result String :=
  match right with
  | none => .ok ""
  | some e => (e.emit s.reading).map (" = " ++ ·)

/-- The assignment can be a field: it gives a name a value. -/
def IsField (left : Expr) (operator : String) : Prop :=
  ∃ name splat loc, left = .reference name splat loc ∧ operator = "="

/-- **An assignment outside class bodies.** -/
theorem emitAssignment_eq (s : Scope) : emitAssignment s left right operator type =
    mappedType type >>= fun _ => assignedText s left right operator := by
  unfold emitAssignment mappedType
  cases type with
  | none => rfl
  | some spelling =>
    by_cases hempty : spelling.isEmpty = true
    · simp only [if_pos hempty]
      rfl
    · simp only [if_neg hempty]
      cases typeName spelling <;> rfl

/-- **A field.** -/
theorem emitField_eq (s : Scope) (name : String) (splat : Option Splat) (loc : Option Location) :
    emitField s (.reference name splat loc) right "=" type =
      fieldType type >>= fun t => fieldValue s right >>= fun v =>
        return .ofLines (Text.lines (Identifier.property name ++ t ++ v)) := by
  unfold emitField fieldType
  cases type with
  | none => cases right <;> rfl
  | some spelling =>
    by_cases hempty : spelling.isEmpty = true
    · simp only [if_pos hempty]
      cases right <;> rfl
    · simp only [if_neg hempty]
      cases right <;> rfl

/-- In a class body nothing else can be assigned. -/
theorem emitField_refused (s : Scope) (h : ¬ IsField left operator) :
    emitField s left right operator type =
      .error (.unsupported left.kind.name NodeKind.classDefinition.name left.loc) := by
  unfold emitField
  split
  · exact absurd ⟨_, _, _, rfl, rfl⟩ h
  · rfl

end Scribe
