import Scribe.Ast.Basic
import Scribe.Literal

/-!
# The grammar of built programs

The type of expressions holds everything that can stand where a value
stands. Which of it does stand where is the grammar below: an expression
is judged in a *role* (`Expr.fits`), and every part of a construct has
the role the construct gives it. A program is well formed if all its
statements are (`Stmt.fits`).

Both judgements are computed. `Scribe.Proofs.Build.Sound.Statement` proves them
of whatever the builder returns.
-/

namespace Scribe

/-- The role an expression plays in the construct around it. -/
inductive Role where
  /-- A value. -/
  | value
  /-- An argument of a call or class. -/
  | argument
  /-- An element of a sequence. -/
  | element
  /-- Something that is assigned to. -/
  | target
  /-- A parameter. -/
  | parameter
  /-- An entry of a dictionary. -/
  | entry
  /-- The index of a container. -/
  | index
  /-- One of several indices of a container. -/
  | indexItem
  deriving DecidableEq, Repr

namespace Role

/-- Any value can play the role. -/
def takesValue : Role → Bool
  | value | argument | element | index | indexItem => true
  | target | parameter | entry => false

/-- A starred name can play the role. -/
def takesSplat : Role → Bool
  | argument | element | target | parameter | entry => true
  | value | index | indexItem => false

/-- A part of an object can play the role: a property or an element. -/
def takesAccess (r : Role) : Bool :=
  r.takesValue || r == .target

end Role

/-- A name without a star. -/
def Expr.isName : Expr → Bool
  | .reference _ none _ => true
  | _ => false

/-- A string literal that documents something when it stands alone. -/
def Expr.isDocumentation : Expr → Bool
  | .string text _ => Literal.isTripleQuoted text
  | _ => false

mutual

/-- **The expression fits the role**, and so do its parts theirs. -/
def Expr.fits : Role → Expr → Bool
  | r, .reference _ none _ => r != .entry
  | r, .reference _ (some _) _ => r.takesSplat
  | r, .defaultParameter _ value _ => r == .parameter && value.fits .value
  | r, .typedParameter .. => r == .parameter
  | r, .typedDefaultParameter _ _ value _ => r == .parameter && value.fits .value
  | r, .call callee arguments _ =>
    r.takesValue && callee.fits .value && Expr.allFit .argument arguments
  | r, .keywordArgument _ value _ => r == .argument && value.fits .value
  | r, .member object property _ => r.takesAccess && object.fits .value && property.isName
  | r, .subscript value index _ => r.takesAccess && value.fits .value && index.fits .index
  | r, .slice start stop step _ =>
    (r == .index || r == .indexItem) && Expr.optionFits .value start
      && Expr.optionFits .value stop && Expr.optionFits .value step
  | r, .binary left _ right _ => r.takesValue && left.fits .value && right.fits .value
  | r, .not operand _ => r.takesValue && operand.fits .value
  | r, .unary _ operand _ => r.takesValue && operand.fits .value
  | r, .conditional test consequence alternative _ =>
    r.takesValue && test.fits .value && consequence.fits .value && alternative.fits .value
  | r, .parenthesized inner _ => r.takesValue && inner.fits .value
  | r, .lambda parameters body _ =>
    r.takesValue && Expr.allFit .parameter parameters && body.fits .value
  | r, .string .. => r.takesValue
  | r, .number .. => r.takesValue
  | r, .boolean .. => r.takesValue
  | r, .null _ => r.takesValue
  | r, .sequence kind items _ =>
    (r.takesValue && kind != .pattern && Expr.itemsFit .element items)
      || (r == .target && Expr.itemsFit .target items)
      || (r == .index && kind == .tuple && Expr.itemsFit .indexItem items)
  | r, .dictionary entries _ => r.takesValue && Expr.allFit .entry entries
  | r, .pair key value _ => r == .entry && key.fits .value && value.fits .value

/-- All the expressions fit the role. -/
def Expr.allFit : Role → List Expr → Bool
  | _, [] => true
  | r, e :: es => e.fits r && Expr.allFit r es

/-- The expression fits the role if there is one. -/
def Expr.optionFits : Role → Option Expr → Bool
  | _, none => true
  | r, some e => e.fits r

/-- All the items that are there fit the role. -/
def Expr.itemsFit : Role → List (Option Expr) → Bool
  | _, [] => true
  | r, i :: is => Expr.optionFits r i && Expr.itemsFit r is

end

mutual

/-- **The statement is well formed.** -/
def Stmt.fits : Stmt → Bool
  | .expression value => value.fits .value && !value.isDocumentation
  | .assignment left right operator _ _ =>
    left.fits .target && Expr.optionFits .value right && assignmentOperators.contains operator
  | .function _ parameters body _ _ _ => Expr.allFit .parameter parameters && Stmt.allFit body
  | .classDefinition _ body arguments _ _ =>
    arguments.all (Expr.allFit .argument) && Stmt.allFit body
  | .conditional choices _ => !choices.isEmpty && Choice.allFit choices
  | .forLoop left right body _ => left.fits .target && right.fits .value && Stmt.allFit body
  | .whileLoop test body _ => test.fits .value && Stmt.allFit body
  | .returning value _ => Expr.optionFits .value value
  | .raising value _ => value.fits .value
  | .simple .. => true
  | .comment text _ => Literal.isTripleQuoted text

/-- All the statements are well formed. -/
def Stmt.allFit : List Stmt → Bool
  | [] => true
  | s :: ss => s.fits && Stmt.allFit ss

/-- All the choices are well formed. -/
def Choice.allFit : List Choice → Bool
  | [] => true
  | c :: cs => c.fits && Choice.allFit cs

/-- The choice is well formed. -/
def Choice.fits : Choice → Bool
  | .mk test body => Expr.optionFits .value test && Stmt.allFit body

end

/-! ## Lists of parts -/

@[simp] theorem Expr.allFit_iff {r : Role} {es : List Expr} :
    Expr.allFit r es = true ↔ ∀ e ∈ es, e.fits r = true := by
  induction es with
  | nil => simp [Expr.allFit]
  | cons e es ih => simp [Expr.allFit, ih]

@[simp] theorem Expr.optionFits_iff {r : Role} {o : Option Expr} :
    Expr.optionFits r o = true ↔ ∀ e ∈ o, e.fits r = true := by
  cases o <;> simp [Expr.optionFits]

/-- Items that are missing fit every role. -/
@[simp] theorem Expr.itemsFit_iff {r : Role} {is : List (Option Expr)} :
    Expr.itemsFit r is = true ↔ ∀ e, some e ∈ is → e.fits r = true := by
  induction is with
  | nil => simp [Expr.itemsFit]
  | cons i is ih =>
    rw [Expr.itemsFit, Bool.and_eq_true, ih, Expr.optionFits_iff]
    constructor
    · rintro ⟨hi, his⟩ e he
      rcases List.mem_cons.1 he with rfl | he
      · exact hi e rfl
      · exact his e he
    · intro h
      refine ⟨?_, fun e he => h e (List.mem_cons_of_mem _ he)⟩
      rintro e rfl
      exact h e (List.mem_cons_self ..)

@[simp] theorem Stmt.allFit_iff {ss : List Stmt} :
    Stmt.allFit ss = true ↔ ∀ s ∈ ss, s.fits = true := by
  induction ss with
  | nil => simp [Stmt.allFit]
  | cons s ss ih => simp [Stmt.allFit, ih]

/-- Choices are well formed one by one. -/
@[simp] theorem Choice.allFit_iff {cs : List Choice} :
    Choice.allFit cs = true ↔ ∀ c ∈ cs, c.fits = true := by
  induction cs with
  | nil => simp [Choice.allFit]
  | cons c cs ih => simp [Choice.allFit, ih]

/-- A value can play every role that takes values. -/
theorem Expr.fits_of_value {e : Expr} {r : Role} (h : e.fits .value = true)
    (hr : r.takesValue = true) : e.fits r = true := by
  cases e with
  | reference name splat loc =>
    cases splat with
    | none => cases r <;> simp_all [Expr.fits, Role.takesValue]
    | some _ => simp [Expr.fits, Role.takesSplat] at h
  | sequence kind items loc =>
    have h' : kind ≠ .pattern ∧ ∀ e, some e ∈ items → e.fits .element = true := by
      simpa [Expr.fits, Role.takesValue] using h
    simp [Expr.fits, hr, h'.1, Expr.itemsFit_iff.2 h'.2]
  | _ =>
    simp_all [Expr.fits, Role.takesValue, Role.takesAccess]

end Scribe
