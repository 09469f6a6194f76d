import Scribe.Compile
import Scribe.Proofs.Build.Sound.Statement
import Scribe.Proofs.Emit.Domain.Statement

/-!
# Which programs can be written

`Program.Unsupported` lists everything that the generator refuses.
`generate_refuses_iff` says that a built program is refused for one of
these reasons and for no other, as long as its types are accepted.
-/

namespace Scribe

/-- **The program holds something that cannot be written**: a statement
that offends, or an expression that offends in one that writes it. -/
def Program.Unsupported (p : Program) : Prop :=
  ∃ outer ∈ p.body, ∃ d s st, outer.Holds .top d s st ∧
    (st.Offends s ∨ ∃ q ∈ st.written s, ∃ r x, q.2.At q.1 r x ∧ x.Offends r)

theorem Program.not_unsupported_iff {p : Program} :
    ¬ p.Unsupported ↔ ∀ outer ∈ p.body, outer.Clean .top := by
  constructor
  · intro h outer houter d s st hst
    refine ⟨fun hoff => h ⟨outer, houter, d, s, st, hst, .inl hoff⟩, fun q hq r x hx hoff => ?_⟩
    exact h ⟨outer, houter, d, s, st, hst, .inr ⟨q, hq, r, x, hx, hoff⟩⟩
  · rintro h ⟨outer, houter, d, s, st, hst, hoff | ⟨q, hq, r, x, hx, hoff⟩⟩
    · exact (h outer houter d s st hst).1 hoff
    · exact (h outer houter d s st hst).2 q hq r x hx hoff

/-- **Writing a module decides whether it holds something unsupported.** -/
theorem Program.decides_blocks {p : Program} (hfits : ∀ st ∈ p.body, st.fits = true)
    (htypes : ∀ t, p.Spells t → Denotes t) : p.blocks.Decides (¬ p.Unsupported) := by
  have hall : ∀ body : List Stmt, body ⊆ p.body →
      (statementBlocks body).Decides (∀ st ∈ body, st.Clean .top) := by
    intro body hbody
    induction body with
    | nil => exact (Result.Decides.of_ok ⟨_, rfl⟩).congr (by simp)
    | cons st body ih =>
      obtain ⟨hst, hbody⟩ := List.cons_subset.1 hbody
      have hspelled : st.Spelled Denotes .top := fun d s inner hholds t ht =>
        htypes t ⟨inner, ⟨st, hst, d, s, hholds⟩, ht⟩
      rw [statementBlocks]
      refine ((st.decides_emit .top rfl (hfits st hst) hspelled).bind fun f _ =>
        (ih hbody).then_ok fun rest _ => ⟨_, rfl⟩).congr ?_
      exact List.forall_mem_cons.symm
  rw [Program.not_unsupported_iff]
  exact (hall p.body (List.Subset.refl _)).then_ok fun blocks _ => ⟨_, rfl⟩

theorem generate_decides {p : Program} {P : Prop} (format : Option Formatter)
    (h : p.blocks.Decides P) : (generate format p).2.Decides P := by
  unfold generate
  generalize p.blocks = result at h ⊢
  cases result with
  | error e => exact h
  | ok blocks =>
    have hP : True ↔ P := iff_of_true trivial (h.ok_iff.1 ⟨blocks, rfl⟩)
    cases format <;> exact (Result.Decides.of_ok ⟨_, rfl⟩).congr hP

/-- **The exact domain of the generator.** A built program all of whose
types are accepted is refused exactly if it holds something unsupported,
and has blocks otherwise. -/
theorem generate_refuses_iff {file : String} {tree : Cst} {p : Program}
    (hp : (tree.build file).result = .ok p)
    (htypes : ∀ t, p.Spells t → ∃ type, typeName t = .ok type)
    (format : Option Formatter) :
    ((∃ kind context loc, (generate format p).2 = .error (.unsupported kind context loc)) ↔
      p.Unsupported) ∧ ((∃ blocks, (generate format p).2 = .ok blocks) ↔ ¬ p.Unsupported) := by
  have hdecides := generate_decides format
    (Program.decides_blocks (Cst.fits_of_build hp) htypes)
  refine ⟨⟨?_, fun h => hdecides.exists_error fun hnot => hnot h⟩, hdecides.ok_iff⟩
  rintro ⟨kind, context, loc, herror⟩
  refine Classical.byContradiction fun hnot => ?_
  obtain ⟨blocks, hok⟩ := hdecides.ok_iff.2 hnot
  exact nomatch herror.symm.trans hok

/-- A function with a typed parameter, whose body assigns to a slice of
it. -/
def sliceTree : Cst :=
  let token (t : String) : Cst := .leaf (.token t) t none
  .tree .moduleRoot [.tree .functionDefinition [.leaf .identifier "f" none,
    .tree .parameters [.tree .typedParameter [.leaf .identifier "xs" none, token ":",
      .leaf .type "int" none] none] none,
    .tree .block [.tree .expressionStatement [.tree .assignment [
      .tree .subscript [.leaf .identifier "xs" none, token "[",
        .tree .slice [.leaf .integer "1" none, token ":"] none, token "]"] none,
      token "=", .leaf .identifier "ys" none] none] none] none] none] none

/-- A part of a sequence, between numbers. -/
def partOf (name : String) (start step : Option String) : Expr :=
  .subscript (.reference name none none)
    (.slice (start.map (.number .integer · none)) none (step.map (.number .integer · none)) none)
    none

/-- No types are spelled in it. -/
theorem spelled_partOf {P : String → Prop} (name : String) (start step : Option String) :
    (partOf name start step).Spelled P := by
  have hleaf : ∀ e : Expr, e.spellings = [] → e.children = [] → e.Spelled P := fun e h h' =>
    Expr.spelled_iff.2 ⟨by simp [h], by simp [h']⟩
  refine Expr.spelled_iff.2 ⟨nofun, List.forall_mem_cons.2 ⟨hleaf _ rfl rfl, ?_⟩⟩
  refine List.forall_mem_singleton.2 (Expr.spelled_iff.2 ⟨nofun, fun c hc => ?_⟩)
  simp only [Expr.children, List.mem_append, Option.mem_toList, Option.map_eq_some_iff,
    reduceCtorEq, or_false] at hc
  rcases hc with ⟨text, -, rfl⟩ | ⟨text, -, rfl⟩
  · exact hleaf _ rfl rfl
  · exact hleaf _ rfl rfl

/-- The program of the tree. -/
def sliceProgram : Program :=
  ⟨[.function "f" [.typedParameter "xs" "int" none none]
    [.assignment (partOf "xs" (some "1") none) (some (.reference "ys" none none)) "=" none none]
    none [] none], none⟩

theorem spells_sliceProgram {t : String} (h : sliceProgram.Spells t) : t = "int" := by
  have hspelled : ∀ st ∈ sliceProgram.body, st.Spelled (· = "int") .top := by
    refine List.forall_mem_singleton.2 (Stmt.spelled_iff.2 ⟨nofun, ?_, ?_⟩)
    · exact List.forall_mem_singleton.2
        (Expr.spelled_iff.2 ⟨fun t ht => List.mem_singleton.1 ht, nofun⟩)
    · refine List.forall_mem_singleton.2 (Stmt.spelled_iff.2 ⟨nofun, ?_, nofun⟩)
      refine List.forall_mem_cons.2 ⟨spelled_partOf "xs" (some "1") none, ?_⟩
      exact List.forall_mem_singleton.2 (Expr.spelled_iff.2 ⟨nofun, nofun⟩)
  obtain ⟨st, ⟨outer, houter, d, s, hholds⟩, ht⟩ := h
  exact hspelled outer houter d s st hholds t ht

/-- Above, the one type is accepted and the slice is refused. -/
theorem generate_refuses_iff_slice :
    (sliceTree.build "m").result = .ok sliceProgram ∧ sliceProgram.Spells "int" ∧
      sliceProgram.Unsupported ∧ ∃ kind context loc,
        (generate none sliceProgram).2 = .error (.unsupported kind context loc) := by
  have hp : (sliceTree.build "m").result = .ok sliceProgram := rfl
  have htypes : ∀ t, sliceProgram.Spells t → ∃ type, typeName t = .ok type := fun t ht =>
    ⟨"number", spells_sliceProgram ht ▸ Result.eq_ok_of_toOption (by decide +kernel)⟩
  have hrefused : sliceProgram.Unsupported := by
    refine ⟨_, List.mem_singleton_self _, 1, _, _, .function (List.mem_singleton_self _) .self, ?_⟩
    exact .inr ⟨_, List.mem_cons_self .., .target, _, .refl, .target⟩
  have hspells : sliceProgram.Spells "int" := by
    refine ⟨_, ⟨_, List.mem_singleton_self _, 0, _, .self⟩, .inr ?_⟩
    exact ⟨_, List.mem_singleton_self _, _, .refl, List.mem_singleton_self _⟩
  exact ⟨hp, hspells, hrefused, (generate_refuses_iff hp htypes none).1.2 hrefused⟩

/-- A slice with a step as a bare target: nothing is assigned to it. -/
def bareStepTree : Cst :=
  let token (t : String) : Cst := .leaf (.token t) t none
  .tree .moduleRoot [.tree .expressionStatement [.tree .assignment [
    .tree .subscript [.leaf .identifier "a" none, token "[",
      .tree .slice [token ":", token ":", .leaf .integer "2" none] none, token "]"] none] none]
    none] none

/-- **A bare target is not refused**, although it is not annotated: the
slice with a step in it is passed over. -/
theorem bare_step_passed : ∃ p, (bareStepTree.build "m").result = .ok p ∧
    p.body = [.assignment (partOf "a" none (some "2")) none "=" none none] ∧
    (∀ t, ¬ p.Spells t) ∧ (partOf "a" none (some "2")).Offends .target ∧
    (generate none p).2 = .ok [] := by
  have hspelled : (Stmt.assignment (partOf "a" none (some "2")) none "=" none none).Spelled
      (fun _ => False) .top :=
    Stmt.spelled_iff.2 ⟨nofun,
      List.forall_mem_singleton.2 (spelled_partOf "a" none (some "2")), nofun⟩
  refine ⟨⟨[.assignment (partOf "a" none (some "2")) none "=" none none], none⟩, rfl, rfl, ?_,
    .step, rfl⟩
  rintro t ⟨st, ⟨outer, houter, d, s, hholds⟩, ht⟩
  obtain rfl := List.mem_singleton.1 houter
  exact hspelled d s st hholds t ht

end Scribe
