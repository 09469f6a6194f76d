import Scribe.Proofs.Decision
import Scribe.Proofs.Syntax.Spelling

/-!
# Which expressions can be written

An expression in its role is written unless a slice stands in the wrong
place: with a step, under an assignment, or among several indices
(`Expr.Offends`). `Expr.decides_emit` says that writing an expression
decides exactly this, and that what it reports otherwise is a construct
that is not supported.
-/

namespace Scribe

/-! ## What cannot be written -/

/-- **An expression that cannot be written in its role.** -/
inductive Expr.Offends : Role → Expr → Prop
  /-- A slice with a step has no counterpart. -/
  | step {r : Role} {value : Expr} {start stop : Option Expr} {step : Expr}
      {loc loc' : Option Location} :
      Offends r (.subscript value (.slice start stop (some step) loc) loc')
  /-- A part of a sequence cannot be assigned to. -/
  | target {value : Expr} {start stop step : Option Expr} {loc loc' : Option Location} :
      Offends .target (.subscript value (.slice start stop step loc) loc')
  /-- A slice cannot be one of several indices. -/
  | item {start stop step : Option Expr} {loc : Option Location} :
      Offends .indexItem (.slice start stop step loc)

/-- Nothing inside the expression, in its role, offends. -/
def Expr.Clean (r : Role) (e : Expr) : Prop :=
  ∀ r' x, e.At r r' x → ¬ x.Offends r'

/-- The spelling denotes a type. -/
def Denotes (spelling : String) : Prop :=
  ∃ type, typeName spelling = .ok type

/-- The expression is the bounds of a part of a sequence. -/
def Expr.IsSlice (e : Expr) : Prop :=
  ∃ start stop step loc, e = .slice start stop step loc

/-- Only what has to do with slices offends. -/
def Expr.mayOffend : Expr → Bool
  | .subscript .. => true
  | .slice .. => true
  | _ => false

/-- The role of something that is neither assigned to nor an index. -/
def Role.isRead (r : Role) : Bool :=
  r != .target && r != .index

variable {r r' : Role} {s : Scope} {e c : Expr}

theorem Expr.not_offends (h : e.mayOffend = false) : ¬ e.Offends r := by
  rintro ⟨⟩ <;> cases h

theorem Expr.clean_iff : e.Clean r ↔ ¬ e.Offends r ∧ ∀ q ∈ e.parts r, q.2.Clean q.1 :=
  Expr.forall_at_iff (P := fun r' x => ¬ x.Offends r')

/-! ## Lists of expressions -/

theorem decides_emitAll {es : List Expr} {P : Expr → Prop}
    (h : ∀ e ∈ es, (e.emit s).Decides (P e)) :
    (Expr.emitAll s es).Decides (∀ e ∈ es, P e) := by
  induction es with
  | nil => exact (Result.Decides.of_ok ⟨[], rfl⟩).congr (by simp)
  | cons e es ih =>
    rw [Expr.emitAll]
    have hes := ih fun c hc => h c (List.mem_cons_of_mem _ hc)
    refine ((h e (List.mem_cons_self ..)).bind fun t _ => hes.then_ok fun ts _ => ⟨_, rfl⟩).congr ?_
    exact List.forall_mem_cons.symm

theorem decides_emitOption {o : Option Expr} {P : Expr → Prop}
    (h : ∀ e ∈ o, (e.emit s).Decides (P e)) :
    (Expr.emitOption s o).Decides (∀ e ∈ o, P e) := by
  cases o with
  | none => exact (Result.Decides.of_ok ⟨none, rfl⟩).congr (by simp)
  | some e =>
    rw [Expr.emitOption]
    exact ((h e rfl).then_ok fun t _ => ⟨_, rfl⟩).congr (by simp)

theorem decides_emitItems {is : List (Option Expr)} {P : Expr → Prop}
    (h : ∀ e, some e ∈ is → (e.emit s).Decides (P e)) :
    (Expr.emitItems s is).Decides (∀ e, some e ∈ is → P e) := by
  induction is with
  | nil => exact (Result.Decides.of_ok ⟨[], rfl⟩).congr (by simp)
  | cons i is ih =>
    rw [Expr.emitItems]
    have hi : (Expr.emitOption s i).Decides (∀ e ∈ i, P e) :=
      decides_emitOption fun e he => h e (Option.mem_def.1 he ▸ List.mem_cons_self ..)
    have his := ih fun e he => h e (List.mem_cons_of_mem _ he)
    refine (hi.bind fun t _ => his.then_ok fun ts _ => ⟨_, rfl⟩).congr ?_
    constructor
    · rintro ⟨hhead, htail⟩ e he
      rcases List.mem_cons.1 he with he | he
      · exact hhead e he.symm
      · exact htail e he
    · intro hall
      refine ⟨fun e he => hall e ?_, fun e he => hall e (List.mem_cons_of_mem _ he)⟩
      rw [← Option.mem_def.1 he]
      exact List.mem_cons_self ..

/-! ## Parameters -/

theorem isSome_parameterName?_of_fits (h : e.fits .parameter = true) :
    e.parameterName?.isSome = true := by
  cases e with
  | reference | typedParameter | defaultParameter | typedDefaultParameter => rfl
  | _ => simp [Expr.fits, Role.takesValue, Role.takesAccess] at h

/-- A parameter whose type is accepted has a slot. -/
theorem exists_slot_of_spelled (hp : e.fits .parameter = true) (ht : e.Spelled Denotes)
    (t : String) : ∃ slot, Slot.ofParameter t e = .ok slot := by
  refine Slot.exists_ofParameter (isSome_parameterName?_of_fits hp) ?_ t
  rintro name type value loc rfl
  exact (Expr.spelled_iff.1 ht).1 type (List.mem_singleton_self _)

/-- The parameters of a list decide whether it has slots. -/
theorem decides_emitSlots {ps : List Expr} {P : Expr → Prop}
    (hfits : ∀ p ∈ ps, p.fits .parameter = true) (ht : ∀ p ∈ ps, p.Spelled Denotes)
    (h : ∀ p ∈ ps, (p.emit s).Decides (P p)) :
    (Expr.emitSlots s ps).Decides (∀ p ∈ ps, P p) := by
  induction ps with
  | nil => exact (Result.Decides.of_ok ⟨[], rfl⟩).congr (by simp)
  | cons p ps ih =>
    rw [Expr.emitSlots]
    have hps := ih (fun q hq => hfits q (List.mem_cons_of_mem _ hq))
      (fun q hq => ht q (List.mem_cons_of_mem _ hq)) (fun q hq => h q (List.mem_cons_of_mem _ hq))
    have hp := h p (List.mem_cons_self ..)
    have hslot : ∀ t, (Slot.ofParameter t p).Decides True := fun t =>
      .of_ok (exists_slot_of_spelled (hfits p (List.mem_cons_self ..))
        (ht p (List.mem_cons_self ..)) t)
    refine (hp.bind fun t _ => (hslot t).bind fun slot _ =>
      hps.then_ok fun slots _ => ⟨_, rfl⟩).congr ?_
    rw [true_and]
    exact List.forall_mem_cons.symm

/-- A collector of named values spells the type in its slot. -/
theorem denotes_keywords {t name type : String} (ht : e.Spelled Denotes)
    (h : Slot.ofParameter t e = .ok (.keywords name (some type))) : Denotes type := by
  have hown := (Expr.spelled_iff.1 ht).1
  cases e with
  | typedParameter name' type' splat loc =>
    rcases splat with _ | _ | _
    · cases h
    · cases h
    · cases h
      exact hown _ (List.mem_singleton_self _)
  | reference name' splat loc => rcases splat with _ | _ | _ <;> cases h
  | typedDefaultParameter name' type' value loc =>
    simp only [Slot.ofParameter, Result.bind_eq_ok, Result.pure_eq_ok] at h
    obtain ⟨_, -, h⟩ := h
    cases h
  | _ => cases h

/-- **A list of slots has a parameter list**, if all types in it are
accepted. -/
theorem exists_parameters {ps : List Expr} {slots : List Slot} (name : Option String)
    (ht : ∀ p ∈ ps, p.Spelled Denotes) (h : Expr.emitSlots s ps = .ok slots) :
    ∃ result, (Signature.ofSlots slots).parameters name = .ok result := by
  have hindex : ∃ index, (Signature.ofSlots slots).indexMember = .ok index := by
    unfold Signature.indexMember
    split
    · exact ⟨_, rfl⟩
    · exact ⟨_, rfl⟩
    · rename_i name' type hkeywords
      -- the type of the collector is one of those that are spelled
      rw [Signature.ofSlots_eq] at hkeywords
      obtain ⟨slot, hslot, hk⟩ := List.mem_filterMap.1 (List.mem_of_getLast? hkeywords)
      obtain ⟨p, hp, t, -, hof⟩ := exists_of_mem_slots h hslot
      have hslot' : slot = .keywords name' (some type) := by
        unfold Slot.keywords? at hk
        split at hk
        · obtain ⟨rfl, rfl⟩ := Prod.mk.inj (Option.some.inj hk)
          rfl
        · cases hk
      obtain ⟨mapped, hmapped⟩ := denotes_keywords (ht p hp) (hslot' ▸ hof)
      exact ⟨_, by rw [hmapped]; rfl⟩
  obtain ⟨index, hindex⟩ := hindex
  have hdefinition : ∀ aliasName,
      ∃ definition, (Signature.ofSlots slots).aliasText aliasName = .ok definition := by
    intro aliasName
    cases aliasName with
    | none => exact ⟨_, rfl⟩
    | some aliasName => exact ⟨_, by rw [Signature.aliasText, hindex]; rfl⟩
  obtain ⟨definition, hdefinition⟩ := hdefinition ((Signature.ofSlots slots).aliasName? name)
  exact ⟨_, by rw [Signature.parameters, hdefinition]; rfl⟩

/-! ## Expressions -/

/-- An expression that its role admits, with accepted types, is written
exactly if nothing inside it offends. A slice between brackets is written
by the subscript around it. -/
def Expr.Writable (e : Expr) : Prop :=
  ∀ r s, r.Admits e → e.Spelled Denotes → s.target = (r == .target) →
    (r = .index → ¬ e.IsSlice) → (e.emit s).Decides (e.Clean r)

theorem Expr.clean_iff_parts (h : ¬ e.Offends r) :
    e.Clean r ↔ ∀ q ∈ e.parts r, q.2.Clean q.1 := by
  rw [Expr.clean_iff]
  exact and_iff_right h

/-- What does not offend itself is written if its parts are clean. -/
theorem Result.Decides.of_parts {α : Type} {P : Prop} {x : Result α}
    (hoffends : e.mayOffend = false) (hx : x.Decides P)
    (hP : P ↔ ∀ q ∈ e.parts r, q.2.Clean q.1) : x.Decides (e.Clean r) :=
  hx.congr (hP.trans (Expr.clean_iff_parts (Expr.not_offends hoffends)).symm)

/-- An expression without parts that is always written. -/
theorem decides_leaf (hok : ∃ t, e.emit s = .ok t) (hoffends : e.mayOffend = false)
    (hparts : e.parts r = []) : (e.emit s).Decides (e.Clean r) :=
  .of_parts hoffends (.of_ok hok) (by simp [hparts])

theorem Role.ofItem_beq_target (r : Role) (kind : SequenceKind) :
    (r.ofItem kind == .target) = (r == .target) := by
  cases r <;> cases kind <;> rfl

theorem Role.ofItem_ne_index (r : Role) (kind : SequenceKind) : r.ofItem kind ≠ .index := by
  cases r <;> cases kind <;> decide

/-- Nothing offends in a name. -/
theorem clean_reference (r : Role) (name : String) (splat : Option Splat)
    (loc : Option Location) : (Expr.reference name splat loc).Clean r :=
  Expr.clean_iff.2 ⟨Expr.not_offends rfl, List.forall_mem_nil _⟩

theorem clean_superCall (h : e.isSuperCall = true) : e.Clean r := by
  unfold Expr.isSuperCall at h
  split at h
  · refine Expr.clean_iff.2 ⟨Expr.not_offends rfl, fun q hq => ?_⟩
    obtain rfl := List.mem_singleton.1 hq
    exact clean_reference _ _ _ _
  · cases h

theorem clean_superConstructor (h : e.isSuperConstructor = true) : e.Clean r := by
  unfold Expr.isSuperConstructor at h
  split at h
  · refine Expr.clean_iff.2 ⟨Expr.not_offends rfl, ?_⟩
    simp only [Expr.parts, List.forall_mem_cons, List.not_mem_nil, false_implies, implies_true,
      and_true]
    exact ⟨clean_superCall (Bool.and_eq_true_iff.1 h).1, clean_reference _ _ _ _⟩
  · cases h

/-- **A subscript with a slice.** -/
theorem decides_sliced {value : Expr} {start stop step : Option Expr} {loc loc' : Option Location}
    (hs : s.target = (r == .target)) (hvalue : (value.emit s.reading).Decides (value.Clean .value))
    (hbounds : ∀ e, e ∈ start ∨ e ∈ stop → (e.emit s.reading).Decides (e.Clean .value)) :
    ((Expr.subscript value (.slice start stop step loc) loc').emit s).Decides
      ((Expr.subscript value (.slice start stop step loc) loc').Clean r) := by
  rw [Expr.emit]
  by_cases hbad : (step.isSome || s.target) = true
  · -- the slice is refused after the value was written
    have hoffends : (Expr.subscript value (.slice start stop step loc) loc').Offends r := by
      cases step with
      | some step => exact .step
      | none =>
        have htarget : r = .target := by simpa [hs] using hbad
        exact htarget ▸ .target
    rw [hbad]
    refine (hvalue.bind fun v _ => Result.Decides.refused _ _ _).congr ?_
    exact iff_of_false (fun h => h.2) (fun h => (Expr.clean_iff.1 h).1 hoffends)
  · obtain ⟨hnone, htarget⟩ : step = none ∧ r ≠ .target := by
      constructor
      · cases step with
        | none => rfl
        | some step => simp at hbad
      · rintro rfl
        simp [hs] at hbad
    subst hnone
    have hoffends : ¬ (Expr.subscript value (.slice start stop none loc) loc').Offends r := by
      rintro ⟨⟩
      exact htarget rfl
    have hslice : (Expr.slice start stop none loc).Clean .index ↔
        (∀ e ∈ start, e.Clean .value) ∧ ∀ e ∈ stop, e.Clean .value := by
      rw [Expr.clean_iff_parts (r := .index) (e := .slice start stop none loc) (by rintro ⟨⟩)]
      simp [Expr.parts, or_imp, forall_and]
    rw [Bool.eq_false_iff.2 hbad]
    refine (hvalue.bind fun v _ => Result.Decides.bind
      (decides_emitOption fun e he => hbounds e (.inl he)) fun a _ => Result.Decides.then_ok
      (decides_emitOption fun e he => hbounds e (.inr he)) fun b _ => ⟨_, rfl⟩).congr ?_
    rw [Expr.clean_iff_parts hoffends]
    simp [Expr.parts, hslice]

/-- A subscript without a slice. -/
theorem decides_indexed {value index : Expr} {loc : Option Location} (hslice : ¬ index.IsSlice)
    (hvalue : (value.emit s.reading).Decides (value.Clean .value))
    (hindex : (index.emit s.reading).Decides (index.Clean .index)) :
    ((Expr.subscript value index loc).emit s).Decides
      ((Expr.subscript value index loc).Clean r) := by
  have hemit : (Expr.subscript value index loc).emit s = (do
      let v ← value.emit s.reading
      let i ← index.emit s.reading
      return v ++ "[" ++ i ++ "]") := by
    rw [Expr.emit]
    exact fun start stop step loc' h => hslice ⟨start, stop, step, loc', h⟩
  have hoffends : ¬ (Expr.subscript value index loc).Offends r := by
    rintro ⟨⟩ <;> exact hslice ⟨_, _, _, _, rfl⟩
  rw [hemit, Expr.clean_iff_parts hoffends]
  refine (hvalue.bind fun v _ => hindex.then_ok fun i _ => ⟨_, rfl⟩).congr ?_
  simp [Expr.parts]

theorem decides_call {callee : Expr} {arguments : List Expr} {loc : Option Location}
    (hcallee : (callee.emit s.reading).Decides (callee.Clean .value))
    (harguments : ∀ a ∈ arguments, (a.emit s.reading).Decides (a.Clean .argument)) :
    ((Expr.call callee arguments loc).emit s).Decides
      ((Expr.call callee arguments loc).Clean r) := by
  have hall := decides_emitAll harguments
  refine .of_parts (P := callee.Clean .value ∧ ∀ a ∈ arguments, a.Clean .argument) rfl ?_
    (by simp [Expr.parts])
  rw [Expr.emit]
  split
  · rename_i hsuper
    refine (hall.then_ok fun as _ => ⟨_, rfl⟩).congr ?_
    exact (and_iff_right (clean_superConstructor hsuper)).symm
  · exact hcallee.bind fun c _ => hall.then_ok fun as _ => ⟨_, rfl⟩

/-- A property is a name. -/
theorem Expr.exists_of_admits_member {object property : Expr} {loc : Option Location}
    (he : r.Admits (.member object property loc)) :
    ∃ name loc', property = .reference name none loc' := by
  have hname : property.isName = true := by
    rcases he with he | ⟨-, he⟩
    · exact (Bool.and_eq_true_iff.1 he).2
    · exact (Bool.and_eq_true_iff.1 he).2
  unfold Expr.isName at hname
  split at hname
  · exact ⟨_, _, rfl⟩
  · cases hname

/-- A property of an object; the property is a name. -/
theorem decides_member {object : Expr} {name : String} {splat : Option Splat}
    {loc loc' : Option Location} (hobject : (object.emit s.reading).Decides (object.Clean .value)) :
    ((Expr.member object (.reference name splat loc') loc).emit s).Decides
      ((Expr.member object (.reference name splat loc') loc).Clean r) := by
  refine .of_parts (P := object.Clean .value) rfl ?_ (by simp [Expr.parts, clean_reference])
  rw [Expr.emit]
  split
  · rename_i hsuper
    exact (Result.Decides.of_ok ⟨_, rfl⟩).congr (iff_of_true trivial (clean_superCall hsuper))
  · exact hobject.then_ok fun o _ => ⟨_, rfl⟩

theorem decides_typedParameter {name type : String} {splat : Option Splat} {loc : Option Location}
    (htype : Denotes type) : ((Expr.typedParameter name type splat loc).emit s).Decides
      ((Expr.typedParameter name type splat loc).Clean r) := by
  obtain ⟨t, htype⟩ := htype
  refine decides_leaf ?_ rfl rfl
  rcases splat with _ | _ | _
  · exact ⟨_, by rw [Expr.emit, htype]; rfl⟩
  · exact ⟨_, by rw [Expr.emit, htype]; rfl⟩
  · exact ⟨_, rfl⟩

theorem decides_conditional {test consequence alternative : Expr} {loc : Option Location}
    (htest : (test.emit s.reading).Decides (test.Clean .value))
    (hconsequence : (consequence.emit s.reading).Decides (consequence.Clean .value))
    (halternative : (alternative.emit s.reading).Decides (alternative.Clean .value)) :
    ((Expr.conditional test consequence alternative loc).emit s).Decides
      ((Expr.conditional test consequence alternative loc).Clean r) := by
  rw [Expr.emit]
  exact .of_parts rfl (htest.bind fun t _ => hconsequence.bind fun c _ =>
    halternative.then_ok fun a _ => ⟨_, rfl⟩) (by simp [Expr.parts])

theorem decides_lambda {parameters : List Expr} {body : Expr} {loc : Option Location}
    (hfits : ∀ p ∈ parameters, p.fits .parameter = true)
    (ht : ∀ p ∈ parameters, p.Spelled Denotes)
    (hparameters : ∀ p ∈ parameters, (p.emit s.reading).Decides (p.Clean .parameter))
    (hbody : (body.emit s.reading).Decides (body.Clean .value)) :
    ((Expr.lambda parameters body loc).emit s).Decides
      ((Expr.lambda parameters body loc).Clean r) := by
  rw [Expr.emit]
  refine .of_parts rfl ((decides_emitSlots hfits ht hparameters).bind fun slots hok =>
    Result.Decides.bind (.of_ok (exists_parameters none ht hok)) fun result _ =>
      hbody.then_ok fun b _ => ⟨_, rfl⟩) ?_
  simp [Expr.parts, or_imp, forall_and]

theorem decides_sequence {kind : SequenceKind} {items : List (Option Expr)}
    {loc : Option Location}
    (hitems : ∀ x, some x ∈ items → (x.emit s).Decides (x.Clean (r.ofItem kind))) :
    ((Expr.sequence kind items loc).emit s).Decides
      ((Expr.sequence kind items loc).Clean r) := by
  rw [Expr.emit]
  refine .of_parts rfl ((decides_emitItems hitems).then_ok fun ts _ => ⟨_, rfl⟩) ?_
  simp [Expr.parts]

/-- A slice that is written by itself stands among several indices, where
it is refused. -/
theorem decides_slice {start stop step : Option Expr} {loc : Option Location}
    (he : r.Admits (.slice start stop step loc)) (hindex : r ≠ .index) :
    ((Expr.slice start stop step loc).emit s).Decides
      ((Expr.slice start stop step loc).Clean r) := by
  obtain rfl : r = .indexItem := by
    rcases he with he | ⟨hr, -⟩
    · simp only [Expr.fits, Bool.and_eq_true, Bool.or_eq_true, beq_iff_eq] at he
      exact he.1.1.1.resolve_left hindex
    · exact hr
  rw [Expr.emit]
  exact (Result.Decides.refused _ _ _).congr
    (iff_of_false id fun h => (Expr.clean_iff.1 h).1 .item)

/-! ### All forms -/

/-- **The parts of the expression decide**, each in a scope that fits its
role. -/
def Expr.PartsDecide (r : Role) (e : Expr) : Prop :=
  ∀ q ∈ e.parts r, ∀ s : Scope, s.target = (q.1 == .target) → (q.1 = .index → ¬ q.2.IsSlice) →
    (q.2.emit s).Decides (q.2.Clean q.1)

/-- What is neither assigned to nor an index is written in a scope of
reading. -/
theorem Expr.PartsDecide.read (h : e.PartsDecide r) (q : Role × Expr) (hq : q ∈ e.parts r)
    (hrole : q.1.isRead = true) (s : Scope) : (q.2.emit s.reading).Decides (q.2.Clean q.1) := by
  obtain ⟨htarget, hindex⟩ : q.1 ≠ .target ∧ q.1 ≠ .index := by simpa [Role.isRead] using hrole
  exact h q hq s.reading (beq_false_of_ne htarget).symm fun h => absurd h hindex

theorem Expr.partsDecide (he : r.Admits e) (ht : e.Spelled Denotes)
    (h : ∀ c ∈ e.children, c.Writable) : e.PartsDecide r := by
  intro q hq s'
  refine h q.2 ?_ q.1 s' (Expr.parts_admits he q hq) (ht.part hq)
  rw [← Expr.map_parts r]
  exact List.mem_map_of_mem hq

/-- What cannot be assigned to is written in a scope of reading
already. -/
theorem reading_eq_self (he : r.Admits e) (hs : s.target = (r == .target))
    (hfits : e.fits .target = false) : s.reading = s := by
  have hr : r ≠ .target := by
    rintro rfl
    simp [Role.Admits, hfits] at he
  rw [Scope.reading, ← hs.trans (beq_false_of_ne hr)]

/-- A subscript decides if its parts do, and the bounds of its slice, which
are written here and not by the slice. -/
theorem decides_subscript {value index : Expr} {loc : Option Location}
    (he : r.Admits (.subscript value index loc))
    (ht : (Expr.subscript value index loc).Spelled Denotes) (hs : s.target = (r == .target))
    (hparts : (Expr.subscript value index loc).PartsDecide r)
    (hbounds : index.IsSlice → ∀ c ∈ index.children, c.Writable) :
    ((Expr.subscript value index loc).emit s).Decides
      ((Expr.subscript value index loc).Clean r) := by
  have hvalue := hparts.read (.value, value) (by simp [Expr.parts]) rfl s
  have hin : (Role.index, index) ∈ (Expr.subscript value index loc).parts r := by
    simp [Expr.parts]
  by_cases hslice : index.IsSlice
  · have hchildren := hbounds hslice
    obtain ⟨start, stop, step, loc', rfl⟩ := hslice
    refine decides_sliced hs hvalue fun c hc => ?_
    have hc' : (Role.value, c) ∈ (Expr.slice start stop step loc').parts .index := by
      rcases hc with hc | hc <;> simp [Expr.parts, Option.mem_def.1 hc]
    exact (Expr.partsDecide (Expr.parts_admits he _ hin) (ht.part hin) hchildren).read _ hc' rfl s
  · exact decides_indexed hslice hvalue (hparts _ hin s.reading rfl fun _ => hslice)

/-- **Every expression is writable** if nothing in it offends; a slice is so
through its bounds. -/
theorem Expr.writable (e : Expr) : e.Writable ∧ (e.IsSlice → ∀ c ∈ e.children, c.Writable) := by
  induction e using Expr.induction_children with
  | step e ih =>
  refine ⟨fun r s he ht hs hindex => ?_, fun _ c hc => (ih c hc).1⟩
  have hparts := Expr.partsDecide he ht fun c hc => (ih c hc).1
  have hread := fun q hq hrole => hparts.read q hq hrole s
  cases e with
  | reference name splat loc =>
    refine decides_leaf ?_ rfl rfl
    cases splat <;> exact ⟨_, rfl⟩
  | string text loc => exact decides_leaf ⟨_, rfl⟩ rfl rfl
  | number kind text loc => exact decides_leaf ⟨_, rfl⟩ rfl rfl
  | boolean value loc => exact decides_leaf ⟨_, rfl⟩ rfl rfl
  | null loc => exact decides_leaf ⟨_, rfl⟩ rfl rfl
  | typedParameter name type splat loc =>
    exact decides_typedParameter ((Expr.spelled_iff.1 ht).1 type (List.mem_singleton_self _))
  | defaultParameter name value loc =>
    have hv := hread (.value, value) (by simp [Expr.parts]) rfl
    -- no parameter is assigned to, so reading its value changes nothing
    rw [reading_eq_self he hs (by simp [Expr.fits])] at hv
    rw [Expr.emit]
    exact .of_parts rfl (hv.then_ok fun v _ => ⟨_, rfl⟩) (by simp [Expr.parts])
  | typedDefaultParameter name type value loc =>
    have hv := hread (.value, value) (by simp [Expr.parts]) rfl
    rw [reading_eq_self he hs (by simp [Expr.fits])] at hv
    rw [Expr.emit]
    exact .of_parts rfl (hv.then_ok fun v _ => ⟨_, rfl⟩) (by simp [Expr.parts])
  | keywordArgument name value loc =>
    have hv := hread (.value, value) (by simp [Expr.parts]) rfl
    rw [reading_eq_self he hs (by simp [Expr.fits])] at hv
    rw [Expr.emit]
    exact .of_parts rfl (hv.then_ok fun v _ => ⟨_, rfl⟩) (by simp [Expr.parts])
  | pair key value loc =>
    have hk := hread (.value, key) (by simp [Expr.parts]) rfl
    have hv := hread (.value, value) (by simp [Expr.parts]) rfl
    rw [reading_eq_self he hs (by simp [Expr.fits])] at hk hv
    rw [Expr.emit]
    exact .of_parts rfl (hk.bind fun k _ => hv.then_ok fun v _ => ⟨_, rfl⟩)
      (by simp [Expr.parts])
  | call callee arguments loc =>
    exact decides_call (hread (.value, callee) (by simp [Expr.parts]) rfl) fun a ha =>
      hread (.argument, a) (by simp [Expr.parts, ha]) rfl
  | member object property loc =>
    obtain ⟨name, loc', rfl⟩ := Expr.exists_of_admits_member he
    exact decides_member (hread (.value, object) (by simp [Expr.parts]) rfl)
  | subscript value index loc =>
    exact decides_subscript he ht hs hparts (ih index (by simp [Expr.children])).2
  | slice start stop step loc =>
    -- the subscript reads its own slice; among several indices a slice itself offends
    exact decides_slice he fun hr => hindex hr ⟨_, _, _, _, rfl⟩
  | binary left op right loc =>
    have hl := hread (.value, left) (by simp [Expr.parts]) rfl
    have hr := hread (.value, right) (by simp [Expr.parts]) rfl
    rw [Expr.emit]
    exact .of_parts rfl (hl.bind fun l _ => hr.then_ok fun r _ => ⟨_, rfl⟩)
      (by simp [Expr.parts])
  | not operand loc =>
    have h := hread (.value, operand) (by simp [Expr.parts]) rfl
    rw [Expr.emit]
    exact .of_parts rfl (h.then_ok fun t _ => ⟨_, rfl⟩) (by simp [Expr.parts])
  | unary op operand loc =>
    have h := hread (.value, operand) (by simp [Expr.parts]) rfl
    rw [Expr.emit]
    exact .of_parts rfl (h.then_ok fun t _ => ⟨_, rfl⟩) (by simp [Expr.parts])
  | parenthesized inner loc =>
    have h := hread (.value, inner) (by simp [Expr.parts]) rfl
    rw [Expr.emit]
    exact .of_parts rfl (h.then_ok fun t _ => ⟨_, rfl⟩) (by simp [Expr.parts])
  | conditional test consequence alternative loc =>
    exact decides_conditional (hread (.value, test) (by simp [Expr.parts]) rfl)
      (hread (.value, consequence) (by simp [Expr.parts]) rfl)
      (hread (.value, alternative) (by simp [Expr.parts]) rfl)
  | lambda parameters body loc =>
    have hin : ∀ p ∈ parameters, (Role.parameter, p) ∈
        (Expr.lambda parameters body loc).parts r := fun p hp => by simp [Expr.parts, hp]
    exact decides_lambda
      (fun p hp => Role.Admits.fits (Expr.parts_admits he _ (hin p hp)) (by decide))
      (fun p hp => ht.part (hin p hp)) (fun p hp => hread (.parameter, p) (hin p hp) rfl)
      (hread (.value, body) (by simp [Expr.parts]) rfl)
  | sequence kind items loc =>
    refine decides_sequence fun x hx => hparts (r.ofItem kind, x) (by simp [Expr.parts, hx]) s ?_ ?_
    · exact hs.trans (Role.ofItem_beq_target r kind).symm
    · exact fun h => absurd h (Role.ofItem_ne_index r kind)
  | dictionary entries loc =>
    have hentries : (Expr.emitAll s.reading entries).Decides (∀ x ∈ entries, x.Clean .entry) :=
      decides_emitAll fun x hx => hread (.entry, x) (by simp [Expr.parts, hx]) rfl
    rw [Expr.emit]
    exact .of_parts rfl (hentries.then_ok fun ts _ => ⟨_, rfl⟩) (by simp [Expr.parts])

/-- **Writing an expression decides whether something in it offends.** -/
theorem Expr.decides_emit (he : r.Admits e) (ht : e.Spelled Denotes)
    (hs : s.target = (r == .target)) (hr : r ≠ .index) : (e.emit s).Decides (e.Clean r) :=
  e.writable.1 r s he ht hs fun h => absurd h hr

end Scribe
