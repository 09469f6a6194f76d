import Scribe.Cst.Basic
import Scribe.Text.Utf8

/-!
# Faults and defects

A *fault* is a reason to refuse a module: a construct that has no counterpart, a text that does not
parse, a block that cannot be formatted. It is reported to the user with its place.

A *defect* means that a syntax tree breaks a promise of the parser (a call without a callee, a leaf
whose bytes are no text) or that a type spelling lacks a part it needs. No report is made: the
compilation breaks off.
-/

namespace Scribe

/-- Why a module is refused. -/
inductive Cause where
  /-- A construct of this kind is not supported where it stands. -/
  | unsupported (kind context : String)
  /-- The text does not parse. -/
  | parse (message : String)
  /-- A block cannot be formatted. -/
  | format (message : String)
  /-- Any other reason. -/
  | general (message : String)
  deriving DecidableEq, Repr

/-- A reason to refuse a module, and where it arose. -/
structure Fault where
  cause : Cause
  location : Option Location
  deriving DecidableEq, Repr

/-- The reason in words. -/
def Cause.message : Cause → String
  | .unsupported kind context =>
    "Unhandled node type '" ++ kind ++ "' in context '" ++ context ++ "'"
  | .parse message => message
  | .format message => message
  | .general message => message

/-- The reason in words. -/
def Fault.message (f : Fault) : String :=
  f.cause.message

/-- The reason in words, followed by the place if it is known. -/
def Fault.text (f : Fault) : String :=
  match f.location with
  | some l => f.message ++ " at " ++ l.text
  | none => f.message

/-- What breaks a compilation off. -/
inductive Defect where
  /-- A part that must be there is missing. -/
  | missingPart
  /-- A slice has a bound too many. -/
  | excessBound
  /-- The bytes of a leaf are no text. -/
  | undecodable (error : Text.Utf8Error)
  deriving DecidableEq, Repr

/-- The defect in words. -/
def Defect.message : Defect → String
  | .missingPart => "list index out of range"
  | .excessBound => "list assignment index out of range"
  | .undecodable e => e.message

/-- What ends a compilation without a result. -/
inductive Failure where
  | fault (f : Fault)
  | defect (d : Defect)
  deriving DecidableEq, Repr

/-- The fault that a construct of kind `kind` is not supported in `context`. -/
def Failure.unsupported (kind context : String) (location : Option Location) : Failure :=
  .fault ⟨.unsupported kind context, location⟩

/-- A value, or what kept it from being made. -/
abbrev Result (α : Type) := Except Failure α

namespace Result

variable {α β : Type}

/-- **Peeling one step.** A sequence of steps succeeds if the first does and what follows it
does. -/
theorem bind_eq_ok {x : Result α} {g : α → Result β} {b : β} :
    x >>= g = .ok b ↔ ∃ a, x = .ok a ∧ g a = .ok b := by
  cases x <;> simp [bind, Except.bind]

/-- What succeeds at once succeeds with its value. -/
theorem pure_eq_ok {a b : α} : (pure a : Result α) = .ok b ↔ a = b := by
  simp [pure, Except.pure]

/-- A function applied to a result succeeds where the result does. -/
theorem map_eq_ok {x : Result α} {g : α → β} {b : β} :
    x.map g = .ok b ↔ ∃ a, x = .ok a ∧ g a = b := by
  cases x <;> simp [Except.map]

/-- Only a success has a value. -/
theorem eq_ok_of_toOption {x : Result α} {a : α} (h : x.toOption = some a) : x = .ok a := by
  cases x with
  | error e => cases h
  | ok b => exact congrArg Except.ok (Option.some.inj h)

end Result

/-- A value, or the fault that is reported instead of it. -/
abbrev Outcome (α : Type) := Except Fault α

/-- An outcome in words; `value` writes what a success holds. -/
def Outcome.text {α : Type} (value : α → String) : Outcome α → String
  | .ok a => "Ok(" ++ value a ++ ")"
  | .error f => "Err(" ++ f.text ++ ")"

/-- The value of a success, and `fallback` otherwise. -/
def Outcome.getD {α : Type} (o : Outcome α) (fallback : α) : α :=
  match o with
  | .ok a => a
  | .error _ => fallback

end Scribe
