import Scribe.Proofs.Syntax.Spelling
import Scribe.Proofs.Text.TypeBrackets

/-!
# Programs with brackets in types only

The words of a program are its names, its literals, its comments and its
decorators, whether they are written or not. `Program.Bracketless` says
that no word holds a bracket, and that every type is spelled by the
grammar of types. The `_iff` lemmas take this down to the parts.
-/

namespace Scribe

open Text

variable {s : Scope} {e : Expr} {st : Stmt} {p : Program}

/-- The words that an expression carries itself: its name, or its text
if it is a literal. -/
def Expr.words : Expr → List String
  | .reference name _ _ => [name]
  | .defaultParameter name _ _ => [name]
  | .typedParameter name _ _ _ => [name]
  | .typedDefaultParameter name _ _ _ => [name]
  | .keywordArgument name _ _ => [name]
  | .string text _ => [text]
  | .number _ text _ => [text]
  | _ => []

/-- The words that a statement carries itself: its name with its
decorators, or its text if it is a comment. -/
def Stmt.words : Stmt → List String
  | .function name _ _ _ decorators _ => name :: decorators
  | .classDefinition name _ _ decorators _ => name :: decorators
  | .comment text _ => [text]
  | _ => []

/-- The word stands in the statement, outside its bodies. -/
def Stmt.Says (st : Stmt) (w : String) : Prop :=
  w ∈ st.words ∨ ∃ q ∈ st.parts, ∃ x, Expr.Inside x q.2 ∧ w ∈ x.words

/-- The word stands somewhere in the program. -/
def Program.Says (p : Program) (w : String) : Prop :=
  ∃ st, p.Has st ∧ st.Says w

/-- **Brackets stand in types only**, and these are spelled with names,
arguments and bars. -/
structure Program.Bracketless (isHead : Char → Bool) (p : Program) : Prop where
  words : ∀ w, p.Says w → Text.Bracketless w
  types : ∀ t, p.Spells t → TypeName.SpelledWith isHead t.toList

/-- The same for everything inside an expression, with dotted names in
front of brackets. -/
def Expr.Bracketless (e : Expr) : Prop :=
  ∀ x, Expr.Inside x e → (∀ w ∈ x.words, Text.Bracketless w) ∧
    ∀ t ∈ x.spellings, TypeName.Spelling t.toList

/-- The same for everything that a statement holds. The scope only labels
what is held. -/
def Stmt.Bracketless (s : Scope) (st : Stmt) : Prop :=
  ∀ d s' inner, st.Holds s d s' inner → (∀ w, inner.Says w → Text.Bracketless w) ∧
    ∀ t, inner.Spells t → TypeName.Spelling t.toList

/-! ## One step down -/

/-- An expression is checked by its own words and types, and by its children.
-/
theorem Expr.bracketless_iff : e.Bracketless ↔
    ((∀ w ∈ e.words, Text.Bracketless w) ∧ ∀ t ∈ e.spellings, TypeName.Spelling t.toList) ∧
      ∀ c ∈ e.children, c.Bracketless := by
  constructor
  · intro h
    exact ⟨h e .refl, fun c hc x hx => h x (.child hc hx)⟩
  · rintro ⟨hself, hchildren⟩
    exact forall_inside hself hchildren

/-- A statement is checked by its own words and types, by its parts, and by
the statements in its bodies. -/
theorem Stmt.bracketless_iff : st.Bracketless s ↔
    ((∀ w ∈ st.words, Text.Bracketless w) ∧ ∀ t ∈ st.spellings, TypeName.Spelling t.toList) ∧
      (∀ q ∈ st.parts, q.2.Bracketless) ∧ ∀ q ∈ st.inner s, q.2.Bracketless q.1 := by
  have hown : ((∀ w, st.Says w → Text.Bracketless w) ∧
        ∀ t, st.Spells t → TypeName.Spelling t.toList) ↔
      ((∀ w ∈ st.words, Text.Bracketless w) ∧ ∀ t ∈ st.spellings, TypeName.Spelling t.toList) ∧
        ∀ q ∈ st.parts, q.2.Bracketless := by
    constructor
    · rintro ⟨hwords, htypes⟩
      exact ⟨⟨fun w hw => hwords w (.inl hw), fun t ht => htypes t (.inl ht)⟩,
        fun q hq x hx => ⟨fun w hw => hwords w (.inr ⟨q, hq, x, hx, hw⟩),
          fun t ht => htypes t (.inr ⟨q, hq, x, hx, ht⟩)⟩⟩
    · rintro ⟨⟨hwords, htypes⟩, hparts⟩
      refine ⟨?_, ?_⟩
      · rintro w (hw | ⟨q, hq, x, hx, hw⟩)
        · exact hwords w hw
        · exact (hparts q hq x hx).1 w hw
      · rintro t (ht | ⟨q, hq, x, hx, ht⟩)
        · exact htypes t ht
        · exact (hparts q hq x hx).2 t ht
  rw [← and_assoc, ← hown]
  exact Stmt.forall_holds_iff (P := fun _ inner => (∀ w, inner.Says w → Text.Bracketless w) ∧
    ∀ t, inner.Spells t → TypeName.Spelling t.toList)

/-- A program is checked statement by statement. -/
theorem Program.bracketless_iff : p.Bracketless TypeName.isNameChar ↔
    ∀ st ∈ p.body, st.Bracketless .top := by
  constructor
  · intro h st hst d s inner hin
    have hhas : p.Has inner := ⟨st, hst, d, s, hin⟩
    exact ⟨fun w hw => h.words w ⟨inner, hhas, hw⟩, fun t ht => h.types t ⟨inner, hhas, ht⟩⟩
  · intro h
    refine ⟨?_, ?_⟩
    · rintro w ⟨inner, ⟨st, hst, d, s, hin⟩, hw⟩
      exact (h st hst d s inner hin).1 w hw
    · rintro t ⟨inner, ⟨st, hst, d, s, hin⟩, ht⟩
      exact (h st hst d s inner hin).2 t ht

namespace Expr.Bracketless

/-- No word of the expression holds a bracket. -/
theorem word {w : String} (h : e.Bracketless) (hw : w ∈ e.words) : Text.Bracketless w :=
  (Expr.bracketless_iff.1 h).1.1 w hw

theorem spelling {t : String} (h : e.Bracketless) (ht : t ∈ e.spellings) :
    TypeName.Spelling t.toList :=
  (Expr.bracketless_iff.1 h).1.2 t ht

theorem child {c : Expr} (h : e.Bracketless) (hc : c ∈ e.children) : c.Bracketless :=
  (Expr.bracketless_iff.1 h).2 c hc

end Expr.Bracketless

namespace Stmt.Bracketless

/-- No word of the statement holds a bracket. -/
theorem word {w : String} (h : st.Bracketless s) (hw : w ∈ st.words) : Text.Bracketless w :=
  (Stmt.bracketless_iff.1 h).1.1 w hw

theorem spelling {t : String} (h : st.Bracketless s) (ht : t ∈ st.spellings) :
    TypeName.Spelling t.toList :=
  (Stmt.bracketless_iff.1 h).1.2 t ht

theorem part {q : Role × Expr} (h : st.Bracketless s) (hq : q ∈ st.parts) : q.2.Bracketless :=
  (Stmt.bracketless_iff.1 h).2.1 q hq

/-- What stands in a body is bracketless as well. -/
theorem inner {q : Scope × Stmt} (h : st.Bracketless s) (hq : q ∈ st.inner s) :
    q.2.Bracketless q.1 :=
  (Stmt.bracketless_iff.1 h).2.2 q hq

end Stmt.Bracketless

end Scribe
