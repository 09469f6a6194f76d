import Scribe.Compile
import Scribe.Proofs.Emit.OnePass.Statement

/-!
# Top-level statements apart from each other

All top-level statements of a module record into one collection, and so
do the statements of a function. Still every one of them is translated as
if it stood alone: the collection is written to and never read before the
end.

`statementBlocks_append` puts a list of statements together from its
parts, and `exists_statementBlocks_iff` and `statementBlocks_error_iff`
say when it can be written and why it cannot. `statements_independent`
says this of generated modules, with or without a formatter, and beside
it what holds in the pass that records while it writes.
-/

namespace Scribe

variable {body : List Stmt} {bs : List String} {e : Failure}

/-! ## Lists of statements -/

/-- Statements are written part by part. -/
theorem statementBlocks_append (xs ys : List Stmt) : statementBlocks (xs ++ ys) = do
    let a ← statementBlocks xs
    let b ← statementBlocks ys
    return a ++ b := by
  induction xs with
  | nil =>
    rw [List.nil_append]
    cases statementBlocks ys <;> rfl
  | cons st xs ih =>
    rw [List.cons_append, statementBlocks, statementBlocks, ih]
    cases st.emit .top with
    | error e => rfl
    | ok f =>
      cases statementBlocks xs with
      | error e => rfl
      | ok a =>
        cases statementBlocks ys with
        | error e => rfl
        | ok b => exact congrArg Except.ok (List.append_assoc ..).symm

/-- **Success.** Statements can be written exactly if each of them can be
written alone. -/
theorem exists_statementBlocks_iff :
    (∃ bs, statementBlocks body = .ok bs) ↔ ∀ st ∈ body, ∃ bs, statementBlocks [st] = .ok bs := by
  induction body with
  | nil => exact ⟨fun _ => List.forall_mem_nil _, fun _ => ⟨[], rfl⟩⟩
  | cons st body ih =>
    rw [List.forall_mem_cons, ← ih, ← List.singleton_append, statementBlocks_append]
    constructor
    · rintro ⟨bs, h⟩
      obtain ⟨a, ha, h⟩ := Result.bind_eq_ok.1 h
      obtain ⟨b, hb, -⟩ := Result.bind_eq_ok.1 h
      exact ⟨⟨a, ha⟩, ⟨b, hb⟩⟩
    · rintro ⟨⟨a, ha⟩, ⟨b, hb⟩⟩
      exact ⟨a ++ b, by rw [ha, hb]; rfl⟩

/-- **Failure.** What cannot be written fails like the first statement
that cannot be written alone. -/
theorem statementBlocks_error_iff : statementBlocks body = .error e ↔
    ∃ before st after, body = before ++ st :: after ∧
      (∀ b ∈ before, ∃ bs, statementBlocks [b] = .ok bs) ∧ statementBlocks [st] = .error e := by
  constructor
  · intro h
    induction body with
    | nil => cases h
    | cons st body ih =>
      rw [← List.singleton_append, statementBlocks_append] at h
      cases hst : statementBlocks [st] with
      | error e' =>
        rw [hst] at h
        obtain rfl := Except.error.inj h
        exact ⟨[], st, body, rfl, List.forall_mem_nil _, hst⟩
      -- the first statement can be written, so the failure is in the rest
      | ok a =>
        rw [hst] at h
        have hbody : statementBlocks body = .error e := by
          cases hbody : statementBlocks body with
          | error e' =>
            rw [hbody] at h
            exact congrArg Except.error (Except.error.inj h)
          | ok b =>
            rw [hbody] at h
            cases h
        obtain ⟨before, st', after, rfl, hbefore, hst'⟩ := ih hbody
        exact ⟨st :: before, st', after, rfl, List.forall_mem_cons.2 ⟨⟨a, hst⟩, hbefore⟩, hst'⟩
  · rintro ⟨before, st, after, rfl, hbefore, hst⟩
    obtain ⟨a, ha⟩ := exists_statementBlocks_iff.2 hbefore
    rw [← List.singleton_append, statementBlocks_append, statementBlocks_append, ha, hst]
    rfl

/-! ## Generated modules -/

/-- Blocks after formatting, if there is a formatter. -/
def formatted (format : Option Formatter) (blocks : List String) : List String :=
  match format with
  | none => blocks
  | some f => formatBlocks f blocks

/-- The generated blocks of a module without that of its declarations. -/
def Program.ownBlocks (format : Option Formatter) (p : Program) : Result (List String) :=
  (generate format p).2.map (·.drop (declarationBlock p.body).length)

/-- The generated blocks of a statement in a module of its own, without
that of its declarations. -/
def Stmt.ownBlocks (format : Option Formatter) (st : Stmt) : List String :=
  ((Program.mk [st] none).ownBlocks format).toOption.getD []

variable {format : Option Formatter} {p : Program}

theorem formatted_append (as bs : List String) :
    formatted format (as ++ bs) = formatted format as ++ formatted format bs := by
  cases format with
  | none => rfl
  | some f => exact List.map_append

theorem length_formatted : (formatted format bs).length = bs.length := by
  cases format with
  | none => rfl
  | some f => exact List.length_map _

/-- A generated module is its declarations and then its statements, formatted
block by block. -/
theorem generate_eq (format : Option Formatter) (p : Program) : (generate format p).2 =
    (statementBlocks p.body).map fun bs => formatted format (declarationBlock p.body ++ bs) := by
  unfold generate Program.blocks
  cases statementBlocks p.body with
  | error e => rfl
  | ok bs => cases format <;> rfl

theorem ownBlocks_eq (format : Option Formatter) (p : Program) :
    p.ownBlocks format = (statementBlocks p.body).map (formatted format) := by
  unfold Program.ownBlocks
  rw [generate_eq]
  cases statementBlocks p.body with
  | error e => rfl
  | ok bs =>
    have hdrop : (formatted format (declarationBlock p.body ++ bs)).drop
        (declarationBlock p.body).length = formatted format bs := by
      rw [formatted_append, List.drop_left' length_formatted]
    exact congrArg Except.ok hdrop

theorem ownBlocks_eq_ok : p.ownBlocks format = .ok bs ↔
    ∃ a, statementBlocks p.body = .ok a ∧ bs = formatted format a := by
  rw [ownBlocks_eq]
  cases statementBlocks p.body with
  | error e => exact ⟨nofun, fun ⟨_, h, _⟩ => (nomatch h)⟩
  | ok a => exact ⟨fun h => ⟨a, rfl, (Except.ok.inj h).symm⟩, fun ⟨_, rfl, h⟩ => congrArg _ h.symm⟩

/-- A module is generated exactly if its statements can be written. -/
theorem exists_generate_iff : (∃ bs, (generate format p).2 = .ok bs) ↔
    ∃ bs, statementBlocks p.body = .ok bs := by
  rw [generate_eq]
  cases statementBlocks p.body with
  | error e => exact ⟨fun ⟨_, h⟩ => (nomatch h), fun ⟨_, h⟩ => (nomatch h)⟩
  | ok bs => exact ⟨fun _ => ⟨bs, rfl⟩, fun _ => ⟨_, rfl⟩⟩

theorem generate_error_iff : (generate format p).2 = .error e ↔
    statementBlocks p.body = .error e := by
  rw [generate_eq]
  cases statementBlocks p.body with
  | error e' => exact Iff.rfl
  | ok bs => exact ⟨nofun, nofun⟩

/-- Every statement keeps its blocks, whatever stands around it. -/
theorem ownBlocks_eq_flatMap (l : Option Location)
    (h : ∀ st ∈ body, ∃ bs, statementBlocks [st] = .ok bs) :
    (Program.mk body l).ownBlocks format = .ok (body.flatMap (Stmt.ownBlocks format)) := by
  rw [ownBlocks_eq]
  induction body with
  | nil => cases format <;> rfl
  | cons st body ih =>
    obtain ⟨⟨a, ha⟩, hbody⟩ := List.forall_mem_cons.1 h
    obtain ⟨b, hb⟩ := exists_statementBlocks_iff.2 hbody
    have hst : st.ownBlocks format = formatted format a := by
      rw [Stmt.ownBlocks, ownBlocks_eq, ha]
      rfl
    have hrest : formatted format b = body.flatMap (Stmt.ownBlocks format) := by
      have := ih hbody
      rw [hb] at this
      exact Except.ok.inj this
    rw [← List.singleton_append, statementBlocks_append, ha, hb, List.flatMap_append,
      List.flatMap_singleton, hst, ← hrest, ← formatted_append]
    rfl

/-- **Top-level statements are translated independently of each other.**
This is about the statements `xs ++ ys` of one module, and those of its
two parts as modules of their own. -/
structure Independent (format : Option Formatter) (xs ys : List Stmt) : Prop where
  /-- The module succeeds exactly if both parts do. -/
  succeeds : ∀ l m n, (∃ bs, (generate format ⟨xs ++ ys, l⟩).2 = .ok bs) ↔
    (∃ bs, (generate format ⟨xs, m⟩).2 = .ok bs) ∧ ∃ bs, (generate format ⟨ys, n⟩).2 = .ok bs
  /-- It fails exactly like the first statement that fails alone. -/
  fails : ∀ l m e, (generate format ⟨xs ++ ys, l⟩).2 = .error e ↔
    ∃ before st after, xs ++ ys = before ++ st :: after ∧
      (∀ b ∈ before, ∃ bs, (generate format ⟨[b], m⟩).2 = .ok bs) ∧
      (generate format ⟨[st], m⟩).2 = .error e
  /-- Without the declarations, its blocks are those of the one part and
  then those of the other. -/
  blocks : ∀ l m n as bs, (Program.mk xs m).ownBlocks format = .ok as →
    (Program.mk ys n).ownBlocks format = .ok bs →
    (Program.mk (xs ++ ys) l).ownBlocks format = .ok (as ++ bs)
  /-- In another order the same statements have the same blocks, in that
  order. -/
  reordered : ∀ l m zs bs, zs.Perm (xs ++ ys) →
    (Program.mk (xs ++ ys) l).ownBlocks format = .ok bs →
    bs = (xs ++ ys).flatMap (Stmt.ownBlocks format) ∧
      (Program.mk zs m).ownBlocks format = .ok (zs.flatMap (Stmt.ownBlocks format))
  /-- Its blocks are those of the pass in which all statements record into
  one collection. -/
  onePass : ∀ l, (Program.mk (xs ++ ys) l).visit = (Program.mk (xs ++ ys) l).blocks
  /-- In that pass the text of a statement, or its failure, is the same
  whatever was recorded before it, at the top of the module and in every
  body below it. -/
  text : ∀ (st : Stmt) (f : Frame) (cs : List Hoisted), f.IsBody → Live f.names cs →
    (st.visit f cs).map (·.1) = st.emit f.scope

/-- What is written in the pass does not depend on the collections. -/
theorem visit_text (st : Stmt) {f : Frame} {cs : List Hoisted} (hf : f.IsBody)
    (hcs : Live f.names cs) : (st.visit f cs).map (·.1) = st.emit f.scope := by
  obtain ⟨made, hrun⟩ := st.agrees f hf cs hcs
  rw [hrun]
  cases st.emit f.scope <;> rfl

/-- **Top-level statements are translated independently.** -/
theorem statements_independent (format : Option Formatter) (xs ys : List Stmt) :
    Independent format xs ys where
  succeeds l m n := by
    rw [exists_generate_iff, exists_generate_iff, exists_generate_iff, exists_statementBlocks_iff,
      exists_statementBlocks_iff, exists_statementBlocks_iff]
    exact List.forall_mem_append
  fails l m e := by
    rw [generate_error_iff, statementBlocks_error_iff]
    simp only [exists_generate_iff, generate_error_iff]
  blocks l m n as bs has hbs := by
    obtain ⟨a, ha, rfl⟩ := ownBlocks_eq_ok.1 has
    obtain ⟨b, hb, rfl⟩ := ownBlocks_eq_ok.1 hbs
    refine ownBlocks_eq_ok.2 ⟨a ++ b, ?_, (formatted_append a b).symm⟩
    rw [statementBlocks_append, ha, hb]
    rfl
  reordered l m zs bs hperm hbs := by
    obtain ⟨a, ha, -⟩ := ownBlocks_eq_ok.1 hbs
    have hall := exists_statementBlocks_iff.1 ⟨a, ha⟩
    rw [ownBlocks_eq_flatMap l hall] at hbs
    exact ⟨(Except.ok.inj hbs).symm,
      ownBlocks_eq_flatMap m fun st hst => hall st (hperm.mem_iff.1 hst)⟩
  onePass l := Program.visit_eq _
  text st f cs hf hcs := visit_text st hf hcs

end Scribe
