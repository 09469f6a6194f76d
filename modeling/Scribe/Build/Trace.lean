import Scribe.Cst.Kind
import Scribe.Fault

/-!
# Traced results

Building a tree skips some nodes on purpose. A traced result is a value or a failure together with
the kinds that were skipped until then, in order.
-/

namespace Scribe

/-- A result, and the kinds of the nodes that were skipped on the way to it. -/
structure Traced (α : Type) where
  skipped : List Kind
  result : Result α

namespace Traced

variable {α β : Type}

/-- A value, with nothing skipped. -/
def pure (a : α) : Traced α := ⟨[], .ok a⟩

/-- A failure, with nothing skipped. -/
def fail (f : Failure) : Traced α := ⟨[], .error f⟩

/-- A skipped node. -/
def skip (kind : Kind) (a : α) : Traced α := ⟨[kind], .ok a⟩

/-- One traced step after another; after a failure nothing more is skipped. -/
def bind (x : Traced α) (f : α → Traced β) : Traced β :=
  match x.result with
  | .ok a => ⟨x.skipped ++ (f a).skipped, (f a).result⟩
  | .error e => ⟨x.skipped, .error e⟩

instance : Monad Traced where
  pure := Traced.pure
  bind := Traced.bind

@[simp] theorem result_pure (a : α) : (Pure.pure a : Traced α).result = .ok a := rfl

@[simp] theorem result_fail (f : Failure) : (fail f : Traced α).result = .error f := rfl

/-- A skipped node gives the result it is skipped with. -/
@[simp] theorem result_skip (kind : Kind) (a : α) : (skip kind a).result = .ok a := rfl

/-- What is skipped does not influence the result. -/
@[simp] theorem result_bind (x : Traced α) (f : α → Traced β) :
    (x >>= f).result = x.result >>= fun a => (f a).result := by
  show (Traced.bind x f).result = _
  unfold Traced.bind
  cases x.result <;> rfl

end Traced

end Scribe
