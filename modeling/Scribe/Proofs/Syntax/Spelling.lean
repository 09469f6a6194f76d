import Scribe.Proofs.Emit.Parts
import Scribe.Proofs.Syntax.Occurrence

/-!
# Type spellings

Types are carried as they are spelled in the source: by parameters,
annotated assignments and functions. `Program.Spells` lists all of them,
written or not. `Expr.Spelled` and `Stmt.Spelled` say that every spelling
in an expression or a statement has a property, and their `_iff` lemmas
take this down to the parts.
-/

namespace Scribe

variable {P : String → Prop} {r : Role} {s : Scope} {e : Expr} {st : Stmt}

/-- The types that an expression spells itself. -/
def Expr.spellings : Expr → List String
  | .typedParameter _ type _ _ => [type]
  | .typedDefaultParameter _ type _ _ => [type]
  | _ => []

/-- The types that a statement spells itself. -/
def Stmt.spellings : Stmt → List String
  | .assignment _ _ _ type _ => type.toList
  | .function _ _ _ returnType _ _ => returnType.toList
  | _ => []

/-- The type is spelled in the statement, outside its bodies. -/
def Stmt.Spells (st : Stmt) (t : String) : Prop :=
  t ∈ st.spellings ∨ ∃ q ∈ st.parts, ∃ x, Expr.Inside x q.2 ∧ t ∈ x.spellings

/-- The type is spelled somewhere in the program. -/
def Program.Spells (p : Program) (t : String) : Prop :=
  ∃ st, p.Has st ∧ st.Spells t

/-- Every type spelled in the expression has the property. -/
def Expr.Spelled (P : String → Prop) (e : Expr) : Prop :=
  ∀ x, Expr.Inside x e → ∀ t ∈ x.spellings, P t

/-- Every type spelled in the statement or in what it holds has the
property. The scope only labels what is held. -/
def Stmt.Spelled (P : String → Prop) (s : Scope) (st : Stmt) : Prop :=
  ∀ d s' inner, st.Holds s d s' inner → ∀ t, inner.Spells t → P t

/-! ## One step down -/

/-- An expression is checked by its own types and by its children. -/
theorem Expr.spelled_iff :
    e.Spelled P ↔ (∀ t ∈ e.spellings, P t) ∧ ∀ c ∈ e.children, c.Spelled P := by
  constructor
  · intro h
    exact ⟨h e .refl, fun c hc x hx => h x (.child hc hx)⟩
  · rintro ⟨hself, hchildren⟩
    exact forall_inside hself hchildren

/-- Outside its bodies a statement is checked by its own types and by its
parts. -/
theorem Stmt.forall_spells_iff : (∀ t, st.Spells t → P t) ↔
    (∀ t ∈ st.spellings, P t) ∧ ∀ q ∈ st.parts, q.2.Spelled P := by
  constructor
  · intro h
    exact ⟨fun t ht => h t (.inl ht), fun q hq x hx t ht => h t (.inr ⟨q, hq, x, hx, ht⟩)⟩
  · rintro ⟨hself, hparts⟩ t (ht | ⟨q, hq, x, hx, ht⟩)
    · exact hself t ht
    · exact hparts q hq x hx t ht

/-- With its bodies a statement is checked by the statements in them as well.
-/
theorem Stmt.spelled_iff : st.Spelled P s ↔
    (∀ t ∈ st.spellings, P t) ∧ (∀ q ∈ st.parts, q.2.Spelled P) ∧
      ∀ q ∈ st.inner s, q.2.Spelled P q.1 := by
  rw [← and_assoc, ← Stmt.forall_spells_iff]
  exact Stmt.forall_holds_iff (P := fun _ inner => ∀ t, inner.Spells t → P t)

/-- The parts are the children, whatever the roles. -/
theorem Expr.map_parts (r : Role) (e : Expr) : (e.parts r).map Prod.snd = e.children := by
  cases e <;> simp [Expr.parts, Expr.children, Function.comp_def]

theorem Expr.Spelled.part {q : Role × Expr} (h : e.Spelled P) (hq : q ∈ e.parts r) :
    q.2.Spelled P := by
  refine (Expr.spelled_iff.1 h).2 q.2 ?_
  rw [← Expr.map_parts r]
  exact List.mem_map_of_mem hq

end Scribe
