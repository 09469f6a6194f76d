import Scribe.Proofs.Build.Sound.Statement
import Scribe.Proofs.Syntax.Occurrence

/-!
# Built programs are well formed

The type of expressions lets a keyword argument, a slice or a parameter
stand wherever a value can. The builder never puts one there:
`Program.WellFormed` says of every kind of expression in which roles it
occurs, and of every statement what shape its parts have, and
`build_wellFormed` proves it of every program that was built, whatever
the tree. Statements and comments occur as body items only, since no
expression holds one.
-/

namespace Scribe

variable {e : Expr} {r : Role}

/-- **Something that can be assigned to**: a name with or without a star,
a property, an element, or a sequence of such things with gaps. -/
inductive Expr.IsTarget : Expr → Prop
  | reference {name : String} {splat : Option Splat} {loc : Option Location} :
      IsTarget (.reference name splat loc)
  | member {object property : Expr} {loc : Option Location} :
      IsTarget (.member object property loc)
  | subscript {value index : Expr} {loc : Option Location} :
      IsTarget (.subscript value index loc)
  | sequence {kind : SequenceKind} {items : List (Option Expr)} {loc : Option Location} :
      (∀ e, some e ∈ items → IsTarget e) → IsTarget (.sequence kind items loc)

/-- **A well formed program.** -/
structure Program.WellFormed (p : Program) : Prop where
  /-- An assignment assigns to a target, with one of the operators. -/
  assignment : ∀ left right operator type loc,
    p.Has (.assignment left right operator type loc) →
    left.IsTarget ∧ operator ∈ assignmentOperators
  /-- A loop assigns to a target. -/
  forLoop : ∀ left right body loc, p.Has (.forLoop left right body loc) → left.IsTarget
  /-- A keyword argument is an argument of a call or class. -/
  keyword : ∀ name value loc r, p.HasAt r (.keywordArgument name value loc) → r = .argument
  /-- A slice is an index, or an item of the tuple that is one. -/
  slice : ∀ start stop step loc r, p.HasAt r (.slice start stop step loc) →
    r = .index ∨ r = .indexItem
  /-- A starred name is an argument, an element, an entry, a parameter or
  a target. An item of a tuple between brackets is an element too. -/
  splat : ∀ name splat loc r, p.HasAt r (.reference name (some splat) loc) →
    r ∈ [.argument, .element, .indexItem, .entry, .parameter, .target]
  /-- A property is a name without a star. -/
  property : ∀ object property loc r, p.HasAt r (.member object property loc) →
    ∃ name loc', property = .reference name none loc'
  /-- A pair is an entry of a dictionary. -/
  pair : ∀ key value loc r, p.HasAt r (.pair key value loc) → r = .entry
  /-- An entry of a dictionary is a pair or a starred name. -/
  entry : ∀ e, p.HasAt .entry e → (∃ key value loc, e = .pair key value loc) ∨
    ∃ name splat loc, e = .reference name (some splat) loc
  /-- A parameter with a default or a type stands in a parameter list. -/
  parameter : ∀ e r, p.HasAt r e →
    e.kind ∈ [.defaultParameter, .typedParameter, .typedDefaultParameter] → r = .parameter
  /-- A bare list of targets is a target. -/
  pattern : ∀ items loc r, p.HasAt r (.sequence .pattern items loc) → r = .target
  /-- A conditional has a choice. -/
  conditional : ∀ choices loc, p.Has (.conditional choices loc) → choices ≠ []
  /-- A comment is a string literal that documents. -/
  comment : ∀ text loc, p.Has (.comment text loc) → Literal.isTripleQuoted text = true
  /-- A string literal that documents is not left as a body item. -/
  literal : ∀ text loc, p.Has (.expression (.string text loc)) →
    Literal.isTripleQuoted text = false

/-! ## From the roles to the shapes -/

/-- What fits a target can be assigned to, and so can its items. -/
theorem Expr.isTarget_of_fits (h : e.fits .target = true) : e.IsTarget := by
  induction e using Expr.induction with
  | reference name splat loc => exact .reference
  | member object property loc _ _ => exact .member
  | subscript value index loc _ _ => exact .subscript
  | sequence kind items loc ih =>
    have hitems : ∀ x, some x ∈ items → x.fits .target = true := by
      simpa [Expr.fits, Role.takesValue] using h
    exact .sequence fun x hx => ih x hx (hitems x hx)
  | _ => simp [Expr.fits, Role.takesValue] at h

/-- What is an entry of a dictionary. -/
theorem Expr.entry_cases (h : e.fits .entry = true) :
    (∃ key value loc, e = .pair key value loc) ∨
      ∃ name splat loc, e = .reference name (some splat) loc := by
  cases e with
  | pair key value loc => exact .inl ⟨key, value, loc, rfl⟩
  | reference name splat loc =>
    cases splat with
    | none => simp [Expr.fits] at h
    | some splat => exact .inr ⟨name, splat, loc, rfl⟩
  | _ => simp [Expr.fits, Role.takesValue, Role.takesAccess] at h

/-- **Well formed statements make a well formed program.** -/
theorem Program.wellFormed_of_fits {p : Program} (hp : ∀ st ∈ p.body, st.fits = true) :
    p.WellFormed where
  assignment left right operator type loc h := by
    have hst := h.fits hp
    simp only [Stmt.fits, Bool.and_eq_true, List.contains_iff_mem] at hst
    exact ⟨Expr.isTarget_of_fits hst.1.1, hst.2⟩
  forLoop left right body loc h := by
    have hst := h.fits hp
    simp only [Stmt.fits, Bool.and_eq_true] at hst
    exact Expr.isTarget_of_fits hst.1.1
  keyword name value loc r h := by
    rcases h.admits hp with hfits | ⟨-, hfits⟩
    · simp only [Expr.fits, Bool.and_eq_true, beq_iff_eq] at hfits
      exact hfits.1
    · simp [Expr.fits] at hfits
  slice start stop step loc r h := by
    rcases h.admits hp with hfits | ⟨rfl, -⟩
    · simp only [Expr.fits, Bool.and_eq_true, Bool.or_eq_true, beq_iff_eq] at hfits
      exact hfits.1.1.1
    · exact .inr rfl
  splat name splat loc r h := by
    rcases h.admits hp with hfits | ⟨rfl, -⟩
    · rw [Expr.fits] at hfits
      cases r <;> simp_all [Role.takesSplat]
    · simp
  property object property loc r h := by
    have hname : property.isName = true := by
      rcases h.admits hp with hfits | ⟨-, hfits⟩
      · simp only [Expr.fits, Bool.and_eq_true] at hfits
        exact hfits.2
      · simp only [Expr.fits, Bool.and_eq_true] at hfits
        exact hfits.2
    unfold Expr.isName at hname
    split at hname
    · exact ⟨_, _, rfl⟩
    · cases hname
  pair key value loc r h := by
    rcases h.admits hp with hfits | ⟨-, hfits⟩
    · simp only [Expr.fits, Bool.and_eq_true, beq_iff_eq] at hfits
      exact hfits.1.1
    · simp [Expr.fits] at hfits
  entry e h := Expr.entry_cases ((h.admits hp).fits (by decide))
  parameter e r h hkind := by
    -- three constructors are parameters by their kind; `hkind` rules out the others
    have hfits : e.fits r = true ∨ e.fits .element = true := (h.admits hp).imp_right And.right
    cases e with
    | defaultParameter name value loc =>
      have hboth : r = .parameter ∧ value.fits .value = true := by simpa [Expr.fits] using hfits
      exact hboth.1
    | typedParameter name type splat loc => simpa [Expr.fits] using hfits
    | typedDefaultParameter name type value loc =>
      have hboth : r = .parameter ∧ value.fits .value = true := by simpa [Expr.fits] using hfits
      exact hboth.1
    | number kind text loc => cases kind <;> simp [Expr.kind, NumberKind.node] at hkind
    | sequence kind items loc => cases kind <;> simp [Expr.kind, SequenceKind.node] at hkind
    | _ => simp [Expr.kind] at hkind
  pattern items loc r h := by
    rcases h.admits hp with hfits | ⟨-, hfits⟩
    · have hboth : r = .target ∧ ∀ e, some e ∈ items → e.fits .target = true := by
        simpa [Expr.fits] using hfits
      exact hboth.1
    · simp [Expr.fits] at hfits
  conditional choices loc h := by
    have hst := h.fits hp
    simp only [Stmt.fits, Bool.and_eq_true, Bool.not_eq_true'] at hst
    simpa using hst.1
  comment text loc h := h.fits hp
  literal text loc h := by
    have hst := h.fits hp
    simp only [Stmt.fits, Expr.isDocumentation, Bool.and_eq_true, Bool.not_eq_true'] at hst
    exact hst.2

/-! ## Whatever was built -/

/-- **Every program that was built is well formed**, for every tree. -/
theorem build_wellFormed {file : String} {tree : Cst} {p : Program}
    (h : (tree.build file).result = .ok p) : p.WellFormed :=
  Program.wellFormed_of_fits (Cst.fits_of_build h)

/-- A documented loop over pairs whose body fills a matrix from a call
with all kinds of arguments. -/
def matrixTree : Cst :=
  let name (n : String) : Cst := .leaf .identifier n none
  let token (t : String) : Cst := .leaf (.token t) t none
  let splat (star n : String) (kind : Kind) : Cst := .tree kind [token star, name n] none
  .tree .moduleRoot [
    .tree .expressionStatement [.leaf .string "\"\"\"Fills m.\"\"\"" none] none,
    .tree .forStatement [
      .tree .patternList [name "i", token ",", splat "*" "rest" .listSplatPattern] none,
      token "in", name "rows",
      .tree .block [.tree .expressionStatement [.tree .augmentedAssignment [
        .tree .subscript [name "m", token "[", name "i", token ",",
          .tree .slice [token ":", .leaf .integer "2" none] none, token "]"] none,
        token "+=",
        .tree .call [.tree .memberAccess [name "f", token ".", name "g"] none,
          .tree .argumentList [splat "*" "rest" .listSplat, token ",",
            .tree .keywordArgument [name "k", token "=", .tree .dictionary [
              splat "**" "kw" .dictionarySplat, token ",",
              .tree .pair [name "a", token ":", .leaf .integer "1" none] none] none] none] none]
          none] none] none] none] none] none

/-- The program of the tree. -/
def matrixProgram : Program :=
  let name (n : String) : Expr := .reference n none none
  let entries : List Expr := [.reference "kw" (some .dictionary) none,
    .pair (name "a") (.number .integer "1" none) none]
  ⟨[.comment "\"\"\"Fills m.\"\"\"" none,
    .forLoop (.sequence .pattern [some (name "i"), some (.reference "rest" (some .list) none)] none)
      (name "rows")
      [.assignment
        (.subscript (name "m") (.sequence .tuple [some (name "i"),
          some (.slice none (some (.number .integer "2" none)) none none)] none) none)
        (some (.call (.member (name "f") (name "g") none)
          [.reference "rest" (some .list) none,
            .keywordArgument "k" (.dictionary entries none) none] none))
        "+=" none none] none], none⟩

/-- Above, a starred name is a target and an argument, a slice stands in
a tuple of indices, and a dictionary is spread inside a keyword
argument. -/
theorem build_wellFormed_matrix :
    (matrixTree.build "m").result = .ok matrixProgram ∧ matrixProgram.WellFormed := by
  have hp : (matrixTree.build "m").result = .ok matrixProgram := rfl
  exact ⟨hp, build_wellFormed hp⟩

end Scribe
