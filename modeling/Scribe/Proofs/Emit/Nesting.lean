import Scribe.Emit.Stmt
import Scribe.Proofs.Build.Grammar
import Scribe.Proofs.Emit.Layout
import Scribe.Proofs.Syntax.Names

/-!
# Nesting

A statement holds the statements of its bodies, at any depth, and every
one of them is written in a scope of its own. `Stmt.Holds` names both
the depth and the scope; `Stmt.Holds.infix_lines` says where the inner
statement's lines are found: together, in one piece, indented by the
depth, among the lines of the statement around it.

The lemmas before it invert success: a statement that was written has
parts that were written, and its lines are made of theirs.
-/

namespace Scribe

variable {s s' : Scope} {st inner : Stmt} {d : Nat} {f : Fragment}

/-! ## Fragments and calls -/

/-- What a written call is made of. -/
theorem emit_call {callee : Expr} {arguments : List Expr} {loc : Option Location} {text : String}
    (h : (Expr.call callee arguments loc).emit s = .ok text) :
    ∃ c texts, (if callee.isSuperConstructor then .ok "super" else callee.emit s.reading) = .ok c ∧
      Expr.emitAll s.reading arguments = .ok texts ∧
      text = c ++ "(" ++ ", ".intercalate (argumentList (arguments.zip texts)) ++ ")" := by
  simp only [Expr.emit] at h
  split at h
  · rename_i hsuper
    simp only [Result.bind_eq_ok, Result.pure_eq_ok] at h
    obtain ⟨c, hc, texts, htexts, rfl⟩ := h
    exact ⟨c, texts, by rwa [if_pos hsuper], htexts, rfl⟩
  · rename_i hsuper
    simp only [Result.bind_eq_ok, Result.pure_eq_ok] at h
    obtain ⟨c, hc, texts, htexts, rfl⟩ := h
    exact ⟨c, texts, by rwa [if_neg hsuper], htexts, rfl⟩

/-! ## Bodies -/

/-- A statement of a written body was written, and its lines stand
together. -/
theorem emitBody_mem {body : List Stmt} (h : Stmt.emitBody s body = .ok f) (hst : st ∈ body) :
    ∃ g, st.emit s = .ok g ∧ g.lines <:+: f.lines := by
  induction body generalizing f with
  | nil => cases hst
  | cons a body ih =>
    simp only [Stmt.emitBody, Result.bind_eq_ok, Result.pure_eq_ok] at h
    obtain ⟨fa, ha, fb, hb, rfl⟩ := h
    rcases List.mem_cons.1 hst with rfl | hst
    · exact ⟨fa, ha, List.infix_append_left⟩
    · obtain ⟨g, hg, hin⟩ := ih hb hst
      exact ⟨g, hg, List.infix_append_of_infix_right hin⟩

/-- The same for the members of a class. -/
theorem emitMembers_mem {body : List Stmt} (h : Stmt.emitMembers s body = .ok f)
    (hst : st ∈ body) : ∃ g, st.emit s = .ok g ∧ g.lines <:+: f.lines := by
  induction body generalizing f with
  | nil => cases hst
  | cons a body ih =>
    simp only [Stmt.emitMembers] at h
    split at h
    · cases h
    · simp only [Result.bind_eq_ok, Result.pure_eq_ok] at h
      obtain ⟨fa, ha, fb, hb, rfl⟩ := h
      rcases List.mem_cons.1 hst with rfl | hst
      · exact ⟨fa, ha, List.infix_append_left⟩
      · obtain ⟨g, hg, hin⟩ := ih hb hst
        exact ⟨g, hg, List.infix_append_of_infix_right hin⟩

/-- What a written choice is made of. -/
theorem emit_choice {loc : Option Location} {first last : Bool} {test : Option Expr}
    {body : List Stmt} (h : (Choice.mk test body).emit s loc first last = .ok f) :
    ∃ t b, (test = none → first = false) ∧ Expr.emitOption s.reading test = .ok t ∧
      Stmt.emitBody s body = .ok b ∧
      f = ⟨choiceOpening first t :: indent 1 b.lines, b.prologue⟩ := by
  simp only [Choice.emit] at h
  split at h
  · cases h
  · rename_i htest
    simp only [Result.bind_eq_ok, Result.pure_eq_ok] at h
    obtain ⟨t, ht, b, hb, rfl⟩ := h
    refine ⟨t, b, fun hnone => ?_, ht, hb, rfl⟩
    simp only [hnone, Option.isNone_none, Bool.true_and, Bool.or_eq_true, not_or] at htest
    simpa using htest.1

/-- A choice of a written conditional was written, and its lines stand
together. -/
theorem emitChoices_mem {loc : Option Location} {first : Bool} {choices : List Choice}
    {c : Choice} (h : Stmt.emitChoices s loc first choices = .ok f) (hc : c ∈ choices) :
    ∃ first last g, c.emit s loc first last = .ok g ∧ g.lines <:+: f.lines := by
  induction choices generalizing f first with
  | nil => cases hc
  | cons a choices ih =>
    simp only [Stmt.emitChoices, Result.bind_eq_ok, Result.pure_eq_ok] at h
    obtain ⟨fa, ha, fb, hb, rfl⟩ := h
    rcases List.mem_cons.1 hc with rfl | hc
    · exact ⟨first, choices.isEmpty, fa, ha, List.infix_append_left⟩
    · obtain ⟨first', last, g, hg, hin⟩ := ih hb hc
      exact ⟨first', last, g, hg, List.infix_append_of_infix_right hin⟩

/-! ## Statements with a body -/

/-- What a written function is made of. -/
theorem emit_function {name : String} {parameters : List Expr} {body : List Stmt}
    {returnType : Option String} {decorators : List String} {loc : Option Location}
    (h : (Stmt.function name parameters body returnType decorators loc).emit s = .ok f) :
    ∃ slots texts definition b returns,
      Expr.emitSlots s.reading (s.passed decorators parameters) = .ok slots ∧
      (Signature.ofSlots slots).parameters (some (s.optionsName name)) = .ok (texts, definition) ∧
      Stmt.emitBody (s.enterFunction (s.receiverInside decorators parameters)) body = .ok b ∧
      returnsText (s.isConstructor name) returnType = .ok returns ∧
      f = ⟨decoratorLines decorators ++ braced (s.functionHeader name decorators texts returns)
          (declarations (s.receiverInside decorators parameters)
            (boundNames (s.passed decorators parameters) ++ declaredNames body) body
            ++ b.lines), definition.toList ++ b.prologue⟩ := by
  simp only [Stmt.emit, splitParameters_eq, Result.bind_eq_ok, Result.pure_eq_ok] at h
  obtain ⟨slots, hslots, ⟨texts, definition⟩, hparams, b, hb, returns, hreturns, rfl⟩ := h
  exact ⟨slots, texts, definition, b, returns, hslots, hparams, hb, hreturns, rfl⟩

/-- The opening line of a function outside class bodies. -/
theorem functionHeader_eq (hs : s.kind ≠ .classBody) (name : String)
    (decorators texts : List String) (returns : String) :
    s.functionHeader name decorators texts returns =
      "function " ++ Identifier.camel name ++ "(" ++ ", ".intercalate texts ++ ")" ++ returns
        ++ " \x7b" := by
  simp [Scope.functionHeader, Scope.isConstructor, hs, String.append_assoc]

/-- What a written class is made of. -/
theorem emit_class {name : String} {body : List Stmt} {arguments : Option (List Expr)}
    {decorators : List String} {loc : Option Location}
    (h : (Stmt.classDefinition name body arguments decorators loc).emit s = .ok f) :
    ∃ base b, extendsText s arguments = .ok base ∧
      Stmt.emitMembers (s.enterClass name) body = .ok b ∧
      f = ⟨decoratorLines decorators
        ++ braced ("class " ++ Identifier.pascal name ++ base ++ " \x7b") b.lines,
        b.prologue⟩ := by
  simp only [Stmt.emit, Result.bind_eq_ok, Result.pure_eq_ok] at h
  obtain ⟨base, hbase, b, hb, rfl⟩ := h
  exact ⟨base, b, hbase, hb, rfl⟩

/-- What a written conditional is made of. -/
theorem emit_conditional {choices : List Choice} {loc : Option Location}
    (h : (Stmt.conditional choices loc).emit s = .ok f) :
    ∃ c, Stmt.emitChoices s loc true choices = .ok c ∧
      f = ⟨c.lines ++ ["\x7d"], c.prologue⟩ := by
  simp only [Stmt.emit, Result.bind_eq_ok, Result.pure_eq_ok] at h
  obtain ⟨c, hc, rfl⟩ := h
  exact ⟨c, hc, rfl⟩

/-- What a written loop over a container is made of. -/
theorem emit_forLoop {left right : Expr} {body : List Stmt} {loc : Option Location}
    (h : (Stmt.forLoop left right body loc).emit s = .ok f) :
    ∃ l r b, left.emit s.assigning = .ok l ∧ right.emit s.reading = .ok r ∧
      Stmt.emitBody s body = .ok b ∧
      f = ⟨braced ("for (" ++ l ++ " of " ++ r ++ ") \x7b") b.lines, b.prologue⟩ := by
  simp only [Stmt.emit, Result.bind_eq_ok, Result.pure_eq_ok] at h
  obtain ⟨l, hl, r, hr, b, hb, rfl⟩ := h
  exact ⟨l, r, b, hl, hr, hb, rfl⟩

/-- What a written loop under a condition is made of. -/
theorem emit_whileLoop {test : Expr} {body : List Stmt} {loc : Option Location}
    (h : (Stmt.whileLoop test body loc).emit s = .ok f) :
    ∃ t b, test.emit s.reading = .ok t ∧ Stmt.emitBody s body = .ok b ∧
      f = ⟨braced ("while (" ++ t ++ ") \x7b") b.lines, b.prologue⟩ := by
  simp only [Stmt.emit, Result.bind_eq_ok, Result.pure_eq_ok] at h
  obtain ⟨t, ht, b, hb, rfl⟩ := h
  exact ⟨t, b, ht, hb, rfl⟩

/-- The body stands between the braces, one level deeper. -/
theorem indent_infix_braced (opening : String) {ls body : List String} (h : ls <:+: body) :
    indent 1 ls <:+: indent 0 (braced opening body) := by
  rw [indent_braced]
  refine (infix_indent 1 h).trans ?_
  exact List.infix_append_of_infix_left List.infix_append_right

/-! ## Statements inside statements -/

/-- **What a statement holds.** Written in the scope `s`, the statement
holds `inner`, inside `d` bodies, where the scope is `s'`. -/
inductive Stmt.Holds : Scope → Stmt → Nat → Scope → Stmt → Prop
  /-- A statement holds itself. -/
  | self {s : Scope} {st : Stmt} : Holds s st 0 s st
  /-- What a statement of a function's body holds. -/
  | function {s s' : Scope} {d : Nat} {name : String} {parameters : List Expr}
      {body : List Stmt} {returnType : Option String} {decorators : List String}
      {loc : Option Location} {st inner : Stmt} : st ∈ body →
      Holds (s.enterFunction (s.receiverInside decorators parameters)) st d s' inner →
      Holds s (.function name parameters body returnType decorators loc) (d + 1) s' inner
  /-- What a member of a class holds. -/
  | classDefinition {s s' : Scope} {d : Nat} {name : String} {body : List Stmt}
      {arguments : Option (List Expr)} {decorators : List String} {loc : Option Location}
      {st inner : Stmt} : st ∈ body → Holds (s.enterClass name) st d s' inner →
      Holds s (.classDefinition name body arguments decorators loc) (d + 1) s' inner
  /-- What a statement under a choice holds. -/
  | conditional {s s' : Scope} {d : Nat} {choices : List Choice} {loc : Option Location}
      {test : Option Expr} {body : List Stmt} {st inner : Stmt} : .mk test body ∈ choices →
      st ∈ body → Holds s st d s' inner → Holds s (.conditional choices loc) (d + 1) s' inner
  /-- What a statement of a loop over a container holds. -/
  | forLoop {s s' : Scope} {d : Nat} {left right : Expr} {body : List Stmt}
      {loc : Option Location} {st inner : Stmt} : st ∈ body → Holds s st d s' inner →
      Holds s (.forLoop left right body loc) (d + 1) s' inner
  /-- What a statement of a loop under a condition holds. -/
  | whileLoop {s s' : Scope} {d : Nat} {test : Expr} {body : List Stmt}
      {loc : Option Location} {st inner : Stmt} : st ∈ body → Holds s st d s' inner →
      Holds s (.whileLoop test body loc) (d + 1) s' inner

/-- Lines inside one body more are indented once more. -/
theorem infix_indent_succ {ls ms ns : List String} (h : indent d ls <:+: indent 0 ms)
    (h' : indent 1 ms <:+: ns) : indent (d + 1) ls <:+: ns := by
  have h1 := infix_indent 1 h
  rw [indent_indent, indent_indent, Nat.add_comm 1 d] at h1
  exact h1.trans h'

/-- **An inner statement stands in one piece.** A statement that was
written has written everything it holds; the inner lines stand together
among its lines, indented by the depth. -/
theorem Stmt.Holds.infix_lines (h : st.Holds s d s' inner) (hf : st.emit s = .ok f) :
    ∃ g, inner.emit s' = .ok g ∧ indent d g.lines <:+: indent 0 f.lines := by
  induction h generalizing f with
  | self => exact ⟨f, hf, List.infix_rfl⟩
  | function hst _ ih =>
    obtain ⟨_, _, _, b, _, _, _, hb, _, rfl⟩ := emit_function hf
    obtain ⟨k, hk, hin⟩ := emitBody_mem hb hst
    obtain ⟨g, hg, hg'⟩ := ih hk
    refine ⟨g, hg, infix_indent_succ hg' ?_⟩
    rw [indent_append]
    exact List.infix_append_of_infix_right
      (indent_infix_braced _ (List.infix_append_of_infix_right hin))
  | classDefinition hst _ ih =>
    obtain ⟨_, b, _, hb, rfl⟩ := emit_class hf
    obtain ⟨k, hk, hin⟩ := emitMembers_mem hb hst
    obtain ⟨g, hg, hg'⟩ := ih hk
    refine ⟨g, hg, infix_indent_succ hg' ?_⟩
    rw [indent_append]
    exact List.infix_append_of_infix_right (indent_infix_braced _ hin)
  | conditional hc hst _ ih =>
    obtain ⟨c, hcs, rfl⟩ := emit_conditional hf
    obtain ⟨_, _, k, hk, hkin⟩ := emitChoices_mem hcs hc
    obtain ⟨_, b, -, -, hb, rfl⟩ := emit_choice hk
    obtain ⟨k, hk, hin⟩ := emitBody_mem hb hst
    obtain ⟨g, hg, hg'⟩ := ih hk
    refine ⟨g, hg, infix_indent_succ hg' ?_⟩
    -- the opening line of the choice stands in front of the body, the last brace behind it
    have hbody : indent 1 k.lines <:+: indent 0 c.lines := by
      have h1 : indent 0 (indent 1 b.lines) <:+: indent 0 c.lines :=
        infix_indent 0 ((List.infix_cons List.infix_rfl).trans hkin)
      rw [indent_indent] at h1
      exact (infix_indent 1 hin).trans h1
    rw [indent_append]
    exact List.infix_append_of_infix_left hbody
  | forLoop hst _ ih =>
    obtain ⟨_, _, b, _, _, hb, rfl⟩ := emit_forLoop hf
    obtain ⟨k, hk, hin⟩ := emitBody_mem hb hst
    obtain ⟨g, hg, hg'⟩ := ih hk
    exact ⟨g, hg, infix_indent_succ hg' (indent_infix_braced _ hin)⟩
  | whileLoop hst _ ih =>
    obtain ⟨_, b, _, hb, rfl⟩ := emit_whileLoop hf
    obtain ⟨k, hk, hin⟩ := emitBody_mem hb hst
    obtain ⟨g, hg, hg'⟩ := ih hk
    exact ⟨g, hg, infix_indent_succ hg' (indent_infix_braced _ hin)⟩

/-- What a well formed statement holds is well formed. -/
theorem Stmt.Holds.fits (h : st.Holds s d s' inner) (hst : st.fits = true) :
    inner.fits = true := by
  induction h with
  | self => exact hst
  | function hmem _ ih =>
    simp only [Stmt.fits, Bool.and_eq_true, Stmt.allFit_iff] at hst
    exact ih (hst.2 _ hmem)
  | classDefinition hmem _ ih =>
    simp only [Stmt.fits, Bool.and_eq_true, Stmt.allFit_iff] at hst
    exact ih (hst.2 _ hmem)
  | conditional hc hmem _ ih =>
    simp only [Stmt.fits, Bool.and_eq_true, Choice.allFit_iff] at hst
    have hfits := hst.2 _ hc
    simp only [Choice.fits, Bool.and_eq_true, Stmt.allFit_iff] at hfits
    exact ih (hfits.2 _ hmem)
  | forLoop hmem _ ih =>
    simp only [Stmt.fits, Bool.and_eq_true, Stmt.allFit_iff] at hst
    exact ih (hst.2 _ hmem)
  | whileLoop hmem _ ih =>
    simp only [Stmt.fits, Bool.and_eq_true, Stmt.allFit_iff] at hst
    exact ih (hst.2 _ hmem)

/-! ## The blocks of a module -/

/-- A module that was written has written its statements, and its
declarations stand in front of their blocks. -/
theorem blocks_eq_ok {p : Program} {blocks : List String} :
    p.blocks = .ok blocks ↔
      ∃ rest, statementBlocks p.body = .ok rest ∧ blocks = declarationBlock p.body ++ rest := by
  simp only [Program.blocks, Result.bind_eq_ok, Result.pure_eq_ok]
  exact exists_congr fun rest => and_congr_right fun _ => eq_comm

/-- A top-level statement of a written module was written, and so are
its blocks. -/
theorem statementBlocks_mem {body : List Stmt} {blocks : List String}
    (h : statementBlocks body = .ok blocks) (hst : st ∈ body) :
    ∃ f, st.emit .top = .ok f ∧ f.blocks <:+: blocks := by
  induction body generalizing blocks with
  | nil => cases hst
  | cons a body ih =>
    simp only [statementBlocks, Result.bind_eq_ok, Result.pure_eq_ok] at h
    obtain ⟨fa, ha, rest, hrest, rfl⟩ := h
    rcases List.mem_cons.1 hst with rfl | hst
    · exact ⟨fa, ha, List.infix_append_left⟩
    · obtain ⟨f, hf, hin⟩ := ih hrest hst
      exact ⟨f, hf, List.infix_append_of_infix_right hin⟩

/-- A statement with a line has a block of its own. -/
theorem assemble_mem_blocks (h : f.lines ≠ []) : assemble f.lines ∈ f.blocks := by
  rw [Fragment.blocks, if_neg (by simpa using h)]
  exact List.mem_append_right _ (List.mem_singleton_self _)

end Scribe
