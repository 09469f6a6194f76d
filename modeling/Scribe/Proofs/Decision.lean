import Scribe.Fault

/-!
# Results that decide a condition

Whether a sequence of steps succeeds is put together from its steps:
`Result.Decides` says that a result is there exactly if a condition
holds, and that otherwise a construct is not supported;
`Result.Decides.bind` joins the conditions of two steps.
-/

namespace Scribe

variable {α β : Type} {P Q : Prop}

/-- The failure reports a construct that is not supported. -/
def Failure.IsUnsupported (e : Failure) : Prop :=
  ∃ kind context loc, e = .unsupported kind context loc

/-- **The result decides the condition**: it is there exactly if the
condition holds, and otherwise a construct is not supported. -/
structure Result.Decides (x : Result α) (P : Prop) : Prop where
  ok_iff : (∃ a, x = .ok a) ↔ P
  unsupported : ∀ e, x = .error e → e.IsUnsupported

namespace Result.Decides

variable {x : Result α} {f : α → Result β}

theorem of_ok (h : ∃ a, x = .ok a) : x.Decides True := by
  obtain ⟨a, rfl⟩ := h
  exact ⟨⟨fun _ => trivial, fun _ => ⟨a, rfl⟩⟩, nofun⟩

/-- What is refused is never there. -/
theorem refused (kind context : String) (loc : Option Location) :
    Result.Decides (.error (.unsupported kind context loc) : Result α) False := by
  refine ⟨⟨fun ⟨_, h⟩ => (nomatch h), False.elim⟩, fun e h => ?_⟩
  exact ⟨kind, context, loc, (Except.error.inj h).symm⟩

theorem congr (h : x.Decides P) (hPQ : P ↔ Q) : x.Decides Q :=
  ⟨h.ok_iff.trans hPQ, h.unsupported⟩

/-- **Two steps.** The second counts only if the first has a result. -/
theorem bind (hx : x.Decides P) (hf : ∀ a, x = .ok a → (f a).Decides Q) :
    (x >>= f).Decides (P ∧ Q) := by
  cases x with
  | error e =>
    have hnone : ¬ P := fun hP => by
      obtain ⟨a, ha⟩ := hx.ok_iff.2 hP
      cases ha
    refine ⟨⟨fun ⟨_, h⟩ => (nomatch h), fun h => absurd h.1 hnone⟩, fun e' h => ?_⟩
    exact hx.unsupported e' (congrArg Except.error (Except.error.inj h))
  | ok a =>
    have ha := hf a rfl
    refine ⟨⟨fun h => ⟨hx.ok_iff.1 ⟨a, rfl⟩, ha.ok_iff.1 h⟩, fun h => ha.ok_iff.2 h.2⟩, ?_⟩
    exact ha.unsupported

/-- A step that always has a result adds nothing. -/
theorem then_ok (hx : x.Decides P) (hf : ∀ a, x = .ok a → ∃ b, f a = .ok b) :
    (x >>= f).Decides P :=
  (hx.bind fun a ha => of_ok (hf a ha)).congr (and_iff_left trivial)

theorem map (hx : x.Decides P) (g : α → β) : Result.Decides (x.map g) P :=
  hx.then_ok fun a _ => ⟨g a, rfl⟩

/-- What is not there is refused. -/
theorem exists_error (h : x.Decides P) (hP : ¬ P) :
    ∃ kind context loc, x = .error (.unsupported kind context loc) := by
  cases x with
  | ok a => exact absurd (h.ok_iff.1 ⟨a, rfl⟩) hP
  | error e =>
    obtain ⟨kind, context, loc, rfl⟩ := h.unsupported e rfl
    exact ⟨kind, context, loc, rfl⟩

end Result.Decides

end Scribe
