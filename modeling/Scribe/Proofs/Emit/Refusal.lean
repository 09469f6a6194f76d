import Scribe.Compile
import Scribe.Proofs.Build.Located
import Scribe.Proofs.Emit.Domain.Statement

/-!
# A refusal points into the source

The generator refuses constructs at about a dozen places, and reports the
place of an expression or statement that it has at hand there. This file
follows what a generator step can fail with (`Result.Fails`): in a located
program (`Scribe.Proofs.Build.Located`), only with a place that the program
has. The tuple that several indices are made into has no place, but it is
never what a refusal reports, only an index in it may be.

Together with the places of built programs this gives `refusal_located`: a
module that is built from a tree with places and then refused is refused
with the place of a node of the tree.
-/

namespace Scribe

variable {α β : Type} {F : Failure → Prop} {L : Option Location → Prop}

/-! ## Results and their failures -/

/-- The result fails with nothing but what has the property. -/
def Result.Fails (F : Failure → Prop) (x : Result α) : Prop :=
  ∀ e, x = .error e → F e

namespace Result.Fails

variable {x : Result α} {f : α → Result β}

theorem ok (a : α) : Result.Fails F (.ok a : Result α) :=
  nofun

theorem error {e : Failure} (h : F e) : Result.Fails F (.error e : Result α) :=
  fun _ h' => Except.error.inj h' ▸ h

/-- **Two steps.** The second counts only if the first has a result. -/
theorem bind_of_ok (hx : x.Fails F) (hf : ∀ a, x = .ok a → (f a).Fails F) :
    (x >>= f).Fails F := by
  intro e h
  cases x with
  | error e' => exact hx e (congrArg Except.error (Except.error.inj h))
  | ok a => exact hf a rfl e h

theorem bind (hx : x.Fails F) (hf : ∀ a, (f a).Fails F) : (x >>= f).Fails F :=
  hx.bind_of_ok fun a _ => hf a

theorem map (hx : x.Fails F) (g : α → β) : Result.Fails F (x.map g) :=
  hx.bind fun a => ok (g a)

end Result.Fails

theorem fails_mapM {f : α → Result β} {as : List α} (h : ∀ a ∈ as, (f a).Fails F) :
    (as.mapM f).Fails F := by
  induction as with
  | nil => exact .ok []
  | cons a as ih =>
    obtain ⟨ha, has⟩ := List.forall_mem_cons.1 h
    rw [List.mapM_cons]
    exact ha.bind fun b => (ih has).bind fun bs => .ok (b :: bs)

/-! ## Types -/

namespace TypeName

/-- A spelling that denotes no type lacks a part. It is never refused. -/
theorem fails_ofChars (hF : F (.defect .missingPart)) (cs : List Char) :
    (ofChars cs).Fails F := by
  -- the pieces are shorter than the spelling
  have ih : ∀ p ∈ (shape (clean cs)).pieces, (ofChars p).Fails F := fun p hp =>
    fails_ofChars hF p
  have hmember : ∀ p ∈ (shape (clean cs)).pieces,
      (if p = "None".toList then .ok "null" else ofChars p : Result String).Fails F := by
    intro p hp
    split
    · exact .ok _
    · exact ih p hp
  rw [ofChars]
  split
  · exact .ok _
  · exact .ok _
  · rename_i ms hshape
    exact (fails_mapM fun m _ => hmember m.1 (hshape ▸ m.2)).bind fun _ => .ok _
  · rename_i args hshape
    split
    · exact .error hF
    · rename_i a ha rest hargs
      exact (ih a (hshape ▸ ha)).bind fun _ => .ok _
  · rename_i args hshape
    exact (fails_mapM fun a _ => hmember a.1 (hshape ▸ a.2)).bind fun _ => .ok _
  · rename_i outer args _ _ hshape
    split
    · exact (fails_mapM fun a _ => ih a.1 (hshape ▸ a.2)).bind fun _ => .ok _
    · exact (fails_mapM fun a _ => ih a.1 (hshape ▸ a.2)).bind fun _ => .ok _
termination_by cs.length
decreasing_by exact length_lt_of_shape_eq rfl hp

end TypeName

/-- **The place that the failure reports has the property.** What breaks a
compilation off reports none. -/
def Failure.Located (L : Option Location → Prop) : Failure → Prop
  | .fault f => L f.location
  | .defect _ => True

theorem fails_typeName (spelling : String) : (typeName spelling).Fails (Failure.Located L) :=
  TypeName.fails_ofChars trivial spelling.toList

/-! ## Signatures -/

/-- What is no parameter is reported with its own place. -/
theorem fails_ofParameter {e : Expr} (h : L e.loc) (text : String) :
    (Slot.ofParameter text e).Fails (Failure.Located L) := by
  unfold Slot.ofParameter
  split
  · exact .ok _
  · exact .ok _
  · exact .ok _
  · exact .ok _
  · exact .ok _
  · exact .ok _
  · exact .ok _
  · exact (fails_typeName _).bind fun _ => .ok _
  · exact .error h

theorem fails_parameters (signature : Signature) (name : Option String) :
    (signature.parameters name).Fails (Failure.Located L) := by
  have hindex : signature.indexMember.Fails (Failure.Located L) := by
    unfold Signature.indexMember
    split
    · exact .ok _
    · exact .ok _
    · exact (fails_typeName _).bind fun _ => .ok _
  have htext : ∀ aliasName, (signature.aliasText aliasName).Fails (Failure.Located L) := by
    intro aliasName
    cases aliasName with
    | none => exact .ok _
    | some aliasName => exact hindex.bind fun _ => .ok _
  exact (htext _).bind fun _ => .ok _

/-! ## Expressions -/

/-- In every scope the expression is written, or fails with a place that
has the property. -/
def Expr.FailsAt (L : Option Location → Prop) (e : Expr) : Prop :=
  ∀ s, (e.emit s).Fails (Failure.Located L)

section

variable {s : Scope} {e : Expr}

/-- A list of expressions fails like one of them. -/
theorem fails_emitAll {es : List Expr} (h : ∀ e ∈ es, e.FailsAt L) :
    (Expr.emitAll s es).Fails (Failure.Located L) := by
  induction es with
  | nil => exact .ok _
  | cons e es ih =>
    obtain ⟨he, hes⟩ := List.forall_mem_cons.1 h
    rw [Expr.emitAll]
    exact (he s).bind fun _ => (ih hes).bind fun _ => .ok _

theorem fails_emitOption {o : Option Expr} (h : ∀ e ∈ o, e.FailsAt L) :
    (Expr.emitOption s o).Fails (Failure.Located L) := by
  cases o with
  | none => exact .ok _
  | some e =>
    rw [Expr.emitOption]
    exact (h e rfl s).bind fun _ => .ok _

theorem fails_emitItems {is : List (Option Expr)} (h : ∀ e, some e ∈ is → e.FailsAt L) :
    (Expr.emitItems s is).Fails (Failure.Located L) := by
  induction is with
  | nil => exact .ok _
  | cons i is ih =>
    have hi : (Expr.emitOption s i).Fails (Failure.Located L) :=
      fails_emitOption fun e he => h e (Option.mem_def.1 he ▸ List.mem_cons_self ..)
    have his := ih fun e he => h e (List.mem_cons_of_mem _ he)
    rw [Expr.emitItems]
    exact hi.bind fun _ => his.bind fun _ => .ok _

theorem fails_emitSlots {ps : List Expr} (hloc : ∀ p ∈ ps, L p.loc)
    (h : ∀ p ∈ ps, p.FailsAt L) : (Expr.emitSlots s ps).Fails (Failure.Located L) := by
  induction ps with
  | nil => exact .ok _
  | cons p ps ih =>
    obtain ⟨hp, hps⟩ := List.forall_mem_cons.1 h
    obtain ⟨hploc, hpsloc⟩ := List.forall_mem_cons.1 hloc
    rw [Expr.emitSlots]
    exact (hp s).bind fun t => (fails_ofParameter hploc t).bind fun _ =>
      (ih hpsloc hps).bind fun _ => .ok _

/-- **A subscript with a slice.** The slice is what is refused. -/
theorem fails_sliced {value : Expr} {start stop step : Option Expr} {loc loc' : Option Location}
    (hloc : L loc) (hvalue : value.FailsAt L)
    (hbounds : ∀ e, e ∈ start ∨ e ∈ stop → e.FailsAt L) :
    (Expr.subscript value (.slice start stop step loc) loc').FailsAt L := by
  intro s
  rw [Expr.emit]
  refine (hvalue s.reading).bind fun v => ?_
  split
  · exact Result.Fails.error
      (e := .unsupported NodeKind.slice.name NodeKind.subscript.name loc) hloc
  · exact (fails_emitOption fun e he => hbounds e (.inl he)).bind fun _ =>
      (fails_emitOption fun e he => hbounds e (.inr he)).bind fun _ => .ok _

/-- A subscript without a slice. -/
theorem fails_indexed {value index : Expr} {loc : Option Location} (hslice : ¬ index.IsSlice)
    (hvalue : value.FailsAt L) (hindex : index.FailsAt L) :
    (Expr.subscript value index loc).FailsAt L := by
  intro s
  rw [Expr.emit]
  · exact (hvalue _).bind fun _ => (hindex _).bind fun _ => .ok _
  · exact fun start stop step loc' h => hslice ⟨start, stop, step, loc', h⟩

/-- A sequence fails like one of its items, and has no failure of its own. -/
theorem fails_sequence {kind : SequenceKind} {items : List (Option Expr)} {loc : Option Location}
    (h : ∀ e, some e ∈ items → e.FailsAt L) : (Expr.sequence kind items loc).FailsAt L := by
  intro s
  rw [Expr.emit]
  exact (fails_emitItems h).bind fun _ => .ok _

/-- A property of an object. -/
theorem fails_member {object property : Expr} {loc : Option Location} (hobject : object.FailsAt L)
    (hproperty : property.FailsAt L) : (Expr.member object property loc).FailsAt L := by
  intro s
  rw [Expr.emit]
  split
  · -- `super` itself is always written
    refine Result.Fails.bind (.ok _) fun o => ?_
    split
    · exact .ok _
    · exact (hproperty _).bind fun _ => .ok _
  · refine (hobject _).bind fun o => ?_
    split
    · exact .ok _
    · exact (hproperty _).bind fun _ => .ok _

/-- An expression with a place of its own, given that its parts fail only
with places. The bounds of a slice are parts of a part. -/
theorem fails_node (hloc : L e.loc) (hlocs : ∀ c ∈ e.children, L c.loc)
    (h : ∀ c ∈ e.children, c.FailsAt L ∧ (c.IsSlice → ∀ x ∈ c.children, x.FailsAt L)) :
    e.FailsAt L := by
  intro s
  have hpart : ∀ c ∈ e.children, c.FailsAt L := fun c hc => (h c hc).1
  cases e with
  | reference name splat loc => cases splat <;> exact .ok _
  | string text loc => exact .ok _
  | number kind text loc => exact .ok _
  | boolean value loc => exact .ok _
  | null loc => exact .ok _
  | typedParameter name type splat loc =>
    rcases splat with _ | _ | _
    · exact (fails_typeName _).bind fun _ => .ok _
    · exact (fails_typeName _).bind fun _ => .ok _
    · exact .ok _
  | defaultParameter name value loc =>
    rw [Expr.emit]
    exact (hpart value (by simp [Expr.children]) s).bind fun _ => .ok _
  | typedDefaultParameter name type value loc =>
    rw [Expr.emit]
    exact (hpart value (by simp [Expr.children]) s).bind fun _ => .ok _
  | keywordArgument name value loc =>
    rw [Expr.emit]
    exact (hpart value (by simp [Expr.children]) s).bind fun _ => .ok _
  | pair key value loc =>
    rw [Expr.emit]
    exact (hpart key (by simp [Expr.children]) s).bind fun _ =>
      (hpart value (by simp [Expr.children]) s).bind fun _ => .ok _
  | call callee arguments loc =>
    have hall : ∀ s, (Expr.emitAll s arguments).Fails (Failure.Located L) := fun s =>
      fails_emitAll fun a ha => hpart a (by simp [Expr.children, ha])
    rw [Expr.emit]
    split
    · exact (hall _).bind fun _ => .ok _
    · exact (hpart callee (by simp [Expr.children]) _).bind fun _ =>
        (hall _).bind fun _ => .ok _
  | member object property loc =>
    exact fails_member (hpart object (by simp [Expr.children]))
      (hpart property (by simp [Expr.children])) s
  | subscript value index loc =>
    have hvalue := hpart value (by simp [Expr.children])
    by_cases hslice : index.IsSlice
    · -- a step is refused at the place of the slice, which is not written itself
      have hbounds := (h index (by simp [Expr.children])).2 hslice
      have hindex := hlocs index (by simp [Expr.children])
      obtain ⟨start, stop, step, loc', rfl⟩ := hslice
      refine fails_sliced hindex hvalue (fun c hc => hbounds c ?_) s
      rcases hc with hc | hc <;> simp [Expr.children, Option.mem_def.1 hc]
    · exact fails_indexed hslice hvalue (hpart index (by simp [Expr.children])) s
  | slice start stop step loc => exact .error hloc
  | binary left op right loc =>
    rw [Expr.emit]
    exact (hpart left (by simp [Expr.children]) _).bind fun _ =>
      (hpart right (by simp [Expr.children]) _).bind fun _ => .ok _
  | not operand loc =>
    rw [Expr.emit]
    exact (hpart operand (by simp [Expr.children]) _).bind fun _ => .ok _
  | unary op operand loc =>
    rw [Expr.emit]
    exact (hpart operand (by simp [Expr.children]) _).bind fun _ => .ok _
  | parenthesized inner loc =>
    rw [Expr.emit]
    exact (hpart inner (by simp [Expr.children]) _).bind fun _ => .ok _
  | conditional test consequence alternative loc =>
    rw [Expr.emit]
    exact (hpart test (by simp [Expr.children]) _).bind fun _ =>
      (hpart consequence (by simp [Expr.children]) _).bind fun _ =>
        (hpart alternative (by simp [Expr.children]) _).bind fun _ => .ok _
  | lambda parameters body loc =>
    have hslots : (Expr.emitSlots s.reading parameters).Fails (Failure.Located L) :=
      fails_emitSlots (fun p hp => hlocs p (by simp [Expr.children, hp]))
        fun p hp => hpart p (by simp [Expr.children, hp])
    rw [Expr.emit]
    exact hslots.bind fun _ => (fails_parameters _ _).bind fun _ =>
      (hpart body (by simp [Expr.children]) _).bind fun _ => .ok _
  | sequence kind items loc =>
    exact fails_sequence (fun c hc => hpart c (by simp [Expr.children, hc])) s
  | dictionary entries loc =>
    rw [Expr.emit]
    exact (fails_emitAll hpart).bind fun _ => .ok _

/-- **A located expression fails with its places only.** -/
theorem Expr.Located.failsAt (h : e.Located L) :
    e.FailsAt L ∧ (e.IsSlice → ∀ c ∈ e.children, c.FailsAt L) := by
  induction h with
  | node hloc hchildren ih =>
    exact ⟨fails_node hloc (fun c hc => (hchildren c hc).loc) ih, fun _ c hc => (ih c hc).1⟩
  | indices hloc _ _ ihvalue ihitems =>
    -- the tuple reports none of its own, and is no slice
    have htuple : ∀ {items loc}, ¬ (Expr.sequence .tuple items loc).IsSlice := by
      rintro items loc ⟨_, _, _, _, ⟨⟩⟩
    refine ⟨fails_indexed htuple ihvalue.1 (fails_sequence fun c hc => (ihitems c hc).1), ?_⟩
    rintro ⟨_, _, _, _, ⟨⟩⟩

end

/-! ## Statements -/

/-- In every scope the statement is written, or fails with a place that has
the property. -/
def Stmt.FailsAt (L : Option Location → Prop) (st : Stmt) : Prop :=
  ∀ s, (st.emit s).Fails (Failure.Located L)

section

variable {s : Scope} {e : Expr} {body : List Stmt}

theorem fails_keptBases {bases : List Expr} (h : ∀ b ∈ bases, L b.loc) :
    (keptBases bases).Fails (Failure.Located L) := by
  induction bases with
  | nil => exact .ok _
  | cons base bases ih =>
    obtain ⟨hbase, hbases⟩ := List.forall_mem_cons.1 h
    unfold keptBases
    split
    · exact .error hbase
    · exact .error hbase
    · exact ih hbases
    · exact (ih hbases).bind fun _ => .ok _

/-- The bases that are kept are some of the bases. -/
theorem keptBases_subset {bases kept : List Expr} (h : keptBases bases = .ok kept) :
    kept ⊆ bases := by
  rw [(decides_keptBases bases).2 kept h]
  exact fun b hb => (List.mem_filter.1 hb).1

/-- The opening line of a class reports one of its bases. -/
theorem fails_extendsText {arguments : Option (List Expr)}
    (h : ∀ b ∈ arguments.getD [], b.Located L) :
    (extendsText s arguments).Fails (Failure.Located L) := by
  unfold extendsText
  refine (fails_keptBases fun b hb => (h b hb).loc).bind_of_ok fun kept hkept => ?_
  have hbases : ∀ b ∈ kept, b.Located L := fun b hb => h b (keptBases_subset hkept hb)
  split
  · exact .ok _
  · rename_i base
    exact ((hbases base (by simp)).failsAt.1 _).bind fun _ => .ok _
  · rename_i second _
    exact .error (hbases second (by simp)).loc

/-- What is no field is reported as what is assigned to. -/
theorem fails_emitField {left : Expr} {right : Option Expr} {operator : String}
    {type : Option String} (hleft : L left.loc) (hright : ∀ e ∈ right, e.FailsAt L) :
    (emitField s left right operator type).Fails (Failure.Located L) := by
  by_cases hfield : IsField left operator
  · obtain ⟨name, splat, loc, rfl, rfl⟩ := hfield
    have htype : (fieldType type).Fails (Failure.Located L) := by
      unfold fieldType
      split
      · exact .ok _
      · split
        · exact .ok _
        · exact (fails_typeName _).map _
    have hvalue : (fieldValue s right).Fails (Failure.Located L) := by
      unfold fieldValue
      split
      · exact .ok _
      · exact (hright _ rfl _).map _
    rw [emitField_eq]
    exact htype.bind fun _ => hvalue.bind fun _ => .ok _
  · rw [emitField_refused s hfield]
    exact .error hleft

theorem fails_emitAssignment {left : Expr} {right : Option Expr} {operator : String}
    {type : Option String} (hleft : left.FailsAt L) (hright : ∀ e ∈ right, e.FailsAt L) :
    (emitAssignment s left right operator type).Fails (Failure.Located L) := by
  have htype : (mappedType type).Fails (Failure.Located L) := by
    unfold mappedType
    split
    · exact .ok _
    · split
      · exact .ok _
      · exact (fails_typeName _).bind fun _ => .ok _
  rw [emitAssignment_eq]
  refine htype.bind fun _ => ?_
  unfold assignedText
  split
  · exact .ok _
  · exact (hleft _).bind fun _ => (hright _ rfl _).bind fun _ => .ok _

theorem fails_returnsText (isConstructor : Bool) (returnType : Option String) :
    (returnsText isConstructor returnType).Fails (Failure.Located L) := by
  unfold returnsText
  split
  · exact .ok _
  · split
    · exact .ok _
    · exact (fails_typeName _).bind fun _ => .ok _

theorem fails_emitReturn {value : Option Expr} (h : ∀ e ∈ value, e.FailsAt L) :
    (emitReturn s value).Fails (Failure.Located L) := by
  unfold emitReturn
  split
  · exact .ok _
  · refine (h _ rfl _).bind fun _ => ?_
    split
    · exact .ok _
    · exact .ok _

/-- What cannot be thrown is reported itself. -/
theorem fails_emitRaise (h : e.Located L) : (emitRaise s e).Fails (Failure.Located L) := by
  refine (h.failsAt.1 _).bind fun _ => ?_
  split
  · exact .ok _
  · exact .ok _
  · exact .ok _
  · exact .error h.loc

theorem fails_emitBody (h : ∀ st ∈ body, st.FailsAt L) :
    (Stmt.emitBody s body).Fails (Failure.Located L) := by
  induction body with
  | nil => exact .ok _
  | cons st body ih =>
    obtain ⟨hst, hbody⟩ := List.forall_mem_cons.1 h
    rw [Stmt.emitBody]
    exact (hst s).bind fun _ => (ih hbody).bind fun _ => .ok _

/-- What cannot be a member of a class is reported itself. -/
theorem fails_emitMembers (hloc : ∀ st ∈ body, L st.loc) (h : ∀ st ∈ body, st.FailsAt L) :
    (Stmt.emitMembers s body).Fails (Failure.Located L) := by
  induction body with
  | nil => exact .ok _
  | cons st body ih =>
    obtain ⟨hst, hbody⟩ := List.forall_mem_cons.1 h
    obtain ⟨hstloc, hbodyloc⟩ := List.forall_mem_cons.1 hloc
    rw [Stmt.emitMembers]
    split
    · exact .error hstloc
    · exact (hst s).bind fun _ => (ih hbodyloc hbody).bind fun _ => .ok _

/-- A choice that lacks a test is reported as the conditional. -/
theorem fails_emitChoices {loc : Option Location} (hloc : L loc) (first : Bool)
    {choices : List Choice} (htest : ∀ e ∈ Choice.tests choices, e.FailsAt L)
    (hbody : ∀ st ∈ Choice.bodies choices, st.FailsAt L) :
    (Stmt.emitChoices s loc first choices).Fails (Failure.Located L) := by
  induction choices generalizing first with
  | nil => exact .ok _
  | cons c choices ih =>
    obtain ⟨test, body⟩ := c
    simp only [Choice.tests, Choice.bodies, List.forall_mem_append, Option.mem_toList]
      at htest hbody
    rw [Stmt.emitChoices, Choice.emit]
    refine .bind ?_ fun _ => (ih false htest.2 hbody.2).bind fun _ => .ok _
    split
    · exact .error hloc
    · exact (fails_emitOption htest.1).bind fun _ => (fails_emitBody hbody.1).bind fun _ => .ok _

/-- **A located statement fails with its places only.** -/
theorem Stmt.Located.failsAt {st : Stmt} (h : st.Located L) : st.FailsAt L := by
  induction h with
  | @mk st hloc hparts hbodies ih =>
  intro s
  have hpart : ∀ q ∈ st.parts, q.2.FailsAt L := fun q hq => (hparts q hq).failsAt.1
  -- a class reports the place of what is no member
  have hlocs : ∀ inner ∈ st.bodies, L inner.loc := by
    intro inner hinner
    cases hbodies inner hinner with
    | mk hloc _ _ => exact hloc
  cases st with
  | expression value =>
    rw [Stmt.emit]
    exact (hpart (.value, value) (by simp [Stmt.parts]) s).bind fun _ => .ok _
  | assignment left right operator type loc =>
    have hleft := hparts (.target, left) (by simp [Stmt.parts])
    have hright : ∀ e ∈ right, e.FailsAt L := fun e he =>
      hpart (.value, e) (by simp [Stmt.parts, Option.mem_def.1 he])
    rw [Stmt.emit]
    split
    · exact fails_emitField hleft.loc hright
    · exact fails_emitAssignment hleft.failsAt.1 hright
  | function name parameters body returnType decorators loc =>
    have hpassed : ∀ p ∈ s.passed decorators parameters, p.Located L := fun p hp =>
      hparts (.parameter, p) (List.mem_map_of_mem (mem_of_mem_passed hp))
    rw [Stmt.emit, splitParameters_eq]
    exact (fails_emitSlots (fun p hp => (hpassed p hp).loc)
      fun p hp => (hpassed p hp).failsAt.1).bind fun _ => (fails_parameters _ _).bind fun _ =>
        (fails_emitBody ih).bind fun _ => (fails_returnsText _ _).bind fun _ => .ok _
  | classDefinition name body arguments decorators loc =>
    rw [Stmt.emit]
    exact (fails_extendsText fun b hb => hparts (.argument, b) (List.mem_map_of_mem hb)).bind
      fun _ => (fails_emitMembers hlocs ih).bind fun _ => .ok _
  | conditional choices loc =>
    rw [Stmt.emit]
    exact (fails_emitChoices hloc true
      (fun e he => hpart (.value, e) (List.mem_map_of_mem he)) ih).bind fun _ => .ok _
  | forLoop left right body loc =>
    rw [Stmt.emit]
    exact (hpart (.target, left) (by simp [Stmt.parts]) _).bind fun _ =>
      (hpart (.value, right) (by simp [Stmt.parts]) _).bind fun _ =>
        (fails_emitBody ih).bind fun _ => .ok _
  | whileLoop test body loc =>
    rw [Stmt.emit]
    exact (hpart (.value, test) (by simp [Stmt.parts]) _).bind fun _ =>
      (fails_emitBody ih).bind fun _ => .ok _
  | returning value loc =>
    rw [Stmt.emit]
    exact fails_emitReturn fun e he =>
      hpart (.value, e) (by simp [Stmt.parts, Option.mem_def.1 he])
  | raising value loc =>
    rw [Stmt.emit]
    exact fails_emitRaise (hparts (.value, value) (by simp [Stmt.parts]))
  | simple kind loc => exact .ok _
  | comment text loc => exact .ok _

end

/-! ## Programs -/

theorem Program.Located.fails_blocks {p : Program} (h : p.Located L) :
    p.blocks.Fails (Failure.Located L) := by
  have hall : ∀ body : List Stmt, (∀ st ∈ body, st.Located L) →
      (statementBlocks body).Fails (Failure.Located L) := by
    intro body hbody
    induction body with
    | nil => exact .ok _
    | cons st body ih =>
      obtain ⟨hst, hbody⟩ := List.forall_mem_cons.1 hbody
      exact (hst.failsAt _).bind fun _ => (ih hbody).bind fun _ => .ok _
  exact (hall p.body h.body).bind fun _ => .ok _

/-- Generation fails with what writing the blocks fails with. -/
theorem generate_error {format : Option Formatter} {p : Program} {e : Failure}
    (h : (generate format p).2 = .error e) : p.blocks = .error e := by
  unfold generate at h
  split at h
  · rename_i hblocks
    exact hblocks.trans h
  · split at h <;> cases h

/-- **A refusal points into the source.** If every node of a tree has a
place, and the module that is built from the tree is refused, then the
refusal reports a place, and it is that of a node of the tree. -/
theorem refusal_located {file : String} {tree : Cst} {p : Program} {format : Option Formatter}
    {kind context : String} {loc : Option Location}
    (hspans : ∀ q ∈ tree.nodes none, q.2.span.isSome = true)
    (hp : (tree.build file).result = .ok p)
    (h : (generate format p).2 = .error (.unsupported kind context loc)) :
    ∃ place, loc = some place ∧ ∃ parent x, (parent, x) ∈ tree.nodes none ∧
      x.location file = some place := by
  obtain ⟨⟨parent, x⟩, hx, hloc⟩ :=
    (Cst.located_of_build hp).fails_blocks _ (generate_error h)
  obtain ⟨span, hspan⟩ := Option.isSome_iff_exists.1 (hspans _ hx)
  have hplace : x.location file = some (span.location file) := by
    rw [Cst.location, hspan, Option.map_some]
  exact ⟨_, hloc.symm.trans hplace, parent, x, hx, hplace⟩

/-- The columns `start` to `stop` of the first line. -/
def firstLine (start stop : Nat) : Option Span :=
  some ⟨1, start, 1, stop, start - 1, stop - 1⟩

/-- The statement `m[i, a:b]`. -/
def tupleIndexTree : Cst :=
  let token (t : String) (n : Nat) : Cst := .leaf (.token t) t (firstLine n (n + 1))
  let name (t : String) (n : Nat) : Cst := .leaf .identifier t (firstLine n (n + 1))
  .tree .moduleRoot [.tree .expressionStatement [.tree .subscript [name "m" 1, token "[" 2,
    name "i" 3, token "," 4, .tree .slice [name "a" 6, token ":" 7, name "b" 8] (firstLine 6 9),
    token "]" 9] (firstLine 1 10)] (firstLine 1 10)] (firstLine 1 10)

/-- The module of the statement. Its tuple of indices has no place. -/
def tupleIndexProgram : Program :=
  let name (t : String) (n : Nat) : Expr :=
    .reference t none ((firstLine n (n + 1)).map (Span.location "f"))
  ⟨[.expression (.subscript (name "m" 1)
    (.sequence .tuple [some (name "i" 3), some (.slice (some (name "a" 6)) (some (name "b" 8)) none
      ((firstLine 6 9).map (Span.location "f")))] none)
    ((firstLine 1 10).map (Span.location "f")))], (firstLine 1 10).map (Span.location "f")⟩

/-- Above, the refusal reports the slice inside the tuple. -/
theorem refusal_located_index :
    (∀ q ∈ tupleIndexTree.nodes none, q.2.span.isSome = true) ∧
    (tupleIndexTree.build "f").result = .ok tupleIndexProgram ∧
    (generate none tupleIndexProgram).2 =
      .error (.unsupported "slice" "expression" (some ⟨"f", 1, 6, 5, 8, 1, 9⟩)) ∧
    ∃ parent x, (parent, x) ∈ tupleIndexTree.nodes none ∧
      x.location "f" = some ⟨"f", 1, 6, 5, 8, 1, 9⟩ := by
  have hspans : ∀ q ∈ tupleIndexTree.nodes none, q.2.span.isSome = true := by
    simp [tupleIndexTree, Cst.nodes, Cst.nodesOf, Cst.span, firstLine]
  have hp : (tupleIndexTree.build "f").result = .ok tupleIndexProgram := rfl
  have hrefused : (generate none tupleIndexProgram).2 =
      .error (.unsupported "slice" "expression" (some ⟨"f", 1, 6, 5, 8, 1, 9⟩)) := rfl
  obtain ⟨place, hplace, hnode⟩ := refusal_located hspans hp hrefused
  exact ⟨hspans, hp, hrefused, Option.some.inj hplace ▸ hnode⟩

end Scribe
