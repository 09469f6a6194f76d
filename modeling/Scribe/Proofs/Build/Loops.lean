import Scribe.Proofs.Build.Inversion

/-!
# What a loop over parts reads

Lambdas, assignments, clauses, loops and definitions are read by going
through the parts of a node: some are passed over, some are read into a
field, and any other is refused. `ReadFrom` says where the value of a field
comes from once all parts are read, and `Part.FailsWith` what a part can
make the loop fail with.

There are two statements for each loop of the builder, one for its success
and one for its failure. Later files read the loops through these: a
property holds of what is read, whatever the order and number of the parts,
if it holds of what each part is read as.
-/

namespace Scribe

variable {α β : Type}

/-- Two steps fail where the first fails, or the second behind it. -/
theorem Traced.bind_eq_error {x : Traced α} {f : α → Traced β} {e : Failure} :
    (x >>= f).result = .error e ↔
      x.result = .error e ∨ ∃ a, x.result = .ok a ∧ (f a).result = .error e := by
  rw [result_bind]
  cases x.result <;> simp [Bind.bind, Except.bind]

/-! ## Fields -/

/-- **What a field holds in the end**: what it held before, or what one of
the parts was read as. -/
inductive ReadFrom (reads : Part → α → Prop) (ps : List Part) (a : α) : α → Prop
  | kept : ReadFrom reads ps a a
  | read {p : Part} {b : α} : p ∈ ps → reads p b → ReadFrom reads ps a b

namespace ReadFrom

variable {reads : Part → α → Prop} {p : Part} {ps : List Part} {a b c : α}

/-- The first part is not read into the field. -/
theorem pass (h : ReadFrom reads ps a b) : ReadFrom reads (p :: ps) a b := by
  cases h with
  | kept => exact .kept
  | read hq hread => exact .read (List.mem_cons_of_mem _ hq) hread

/-- The first part is read into the field. -/
theorem first (hread : reads p b) (h : ReadFrom reads ps b c) : ReadFrom reads (p :: ps) a c := by
  cases h with
  | kept => exact .read (List.mem_cons_self ..) hread
  | read hq hread' => exact .read (List.mem_cons_of_mem _ hq) hread'

/-- **What holds of a field**: it held before, and the parts give it. -/
theorem holds {Q : α → Prop} (h : ReadFrom reads ps a b) (ha : Q a)
    (hps : ∀ p ∈ ps, ∀ b, reads p b → Q b) : Q b := by
  cases h with
  | kept => exact ha
  | read hp hread => exact hps _ hp _ hread

end ReadFrom

/-- The part is built as what the field holds, if it holds something. -/
def BuildsSome (build : Part → Traced α) (p : Part) (o : Option α) : Prop :=
  ∀ a ∈ o, (build p).result = .ok a

/-- The part is built as the list that the field holds. -/
def BuildsAll (build : Part → Traced (List α)) (p : Part) (as : List α) : Prop :=
  (build p).result = .ok as

/-- The part is a type, and the field holds its spelling. -/
def SpellsType (p : Part) (type : Option String) : Prop :=
  p.kind = .type ∧ type = some p.text

theorem buildsSome_some {build : Part → Traced α} {p : Part} {a : α}
    (h : (build p).result = .ok a) : BuildsSome build p (some a) :=
  fun _ ha => Option.some.inj ha ▸ h

namespace ReadFrom

variable {P : α → Prop} {ps : List Part}

/-- What holds of the parts a field is built from holds of what it holds. -/
theorem forall_some {build : Part → Traced α} {o o' : Option α}
    (h : ReadFrom (BuildsSome build) ps o o') (ho : ∀ a ∈ o, P a)
    (hps : ∀ p ∈ ps, ∀ a, (build p).result = .ok a → P a) : ∀ a ∈ o', P a :=
  h.holds ho fun p hp _ hread a ha => hps p hp a (hread a ha)

theorem forall_all {build : Part → Traced (List α)} {as as' : List α}
    (h : ReadFrom (BuildsAll build) ps as as') (has : ∀ a ∈ as, P a)
    (hps : ∀ p ∈ ps, ∀ bs, (build p).result = .ok bs → ∀ a ∈ bs, P a) : ∀ a ∈ as', P a :=
  h.holds has hps

/-- A field for a type holds the spelling of a part of that kind. -/
theorem forall_type {Q : String → Prop} {type type' : Option String}
    (h : ReadFrom SpellsType ps type type') (htype : ∀ spelling ∈ type, Q spelling)
    (hps : ∀ p ∈ ps, p.kind = .type → Q p.text) : ∀ spelling ∈ type', Q spelling := by
  refine h.holds (Q := fun type => ∀ spelling ∈ type, Q spelling) htype ?_
  rintro p hp _ ⟨hkind, rfl⟩ _ ⟨⟩
  exact hps p hp hkind

end ReadFrom

/-- A list that is missing counts as empty. -/
theorem forall_getD {P : α → Prop} {o : Option (List α)} :
    (∀ as ∈ o, ∀ a ∈ as, P a) ↔ ∀ a ∈ o.getD [], P a := by
  cases o <;> simp

/-! ## Failures -/

/-- **What a part can make a loop fail with**: the part is refused, or it
cannot be built in one of the roles that loops read. -/
inductive Part.FailsWith (c : Context) (p : Part) : Failure → Prop
  | refused : FailsWith c p (.unsupported p.kind.name c.parentName p.loc)
  | expression {e : Failure} : (p.expression c).result = .error e → FailsWith c p e
  | target {e : Failure} : (p.target c).result = .error e → FailsWith c p e
  | parameters {e : Failure} : (p.parameters c).result = .error e → FailsWith c p e
  | arguments {e : Failure} : (p.arguments c).result = .error e → FailsWith c p e
  | body {e : Failure} : (p.body c).result = .error e → FailsWith c p e

/-- One of the parts makes the loop fail. -/
def FailsAt (c : Context) (ps : List Part) (e : Failure) : Prop :=
  ∃ p ∈ ps, p.FailsWith c e

namespace FailsAt

variable {c : Context} {p : Part} {ps : List Part} {e : Failure}

theorem first (h : p.FailsWith c e) : FailsAt c (p :: ps) e :=
  ⟨p, List.mem_cons_self .., h⟩

theorem later (h : FailsAt c ps e) : FailsAt c (p :: ps) e := by
  obtain ⟨q, hq, h⟩ := h
  exact ⟨q, List.mem_cons_of_mem _ hq, h⟩

/-- The first part itself is refused. -/
theorem refuse (h : (p.refuse c : Traced α).result = .error e) : FailsAt c (p :: ps) e := by
  obtain rfl := Except.error.inj h
  exact first .refused

/-- The first part is built, and the loop goes on. -/
theorem bind {x : Traced α} {f : α → Traced β} (h : (x >>= f).result = .error e)
    (hx : x.result = .error e → p.FailsWith c e)
    (hf : ∀ a, (f a).result = .error e → FailsAt c ps e) : FailsAt c (p :: ps) e := by
  rcases Traced.bind_eq_error.1 h with h | ⟨a, -, h⟩
  · exact first (hx h)
  · exact later (hf a h)

end FailsAt

namespace Branch

variable {c : Context} {ps : List Part} {e : Failure}

/-! ## Expressions -/

/-- The parameters and the body of a function without a name are those of its
parts. -/
theorem lambdaParts_eq_ok {es es' : List Expr} {body body' : Option Expr}
    (h : (lambdaParts c es body ps).result = .ok (es', body')) :
    ReadFrom (BuildsAll (·.parameters c)) ps es es' ∧
      ReadFrom (BuildsSome (·.expression c)) ps body body' := by
  induction ps generalizing es body with
  | nil =>
    obtain ⟨rfl, rfl⟩ := Prod.mk.inj (Traced.pure_eq_ok.1 h)
    exact ⟨.kept, .kept⟩
  | cons p ps ih =>
    simp only [lambdaParts] at h
    split at h
    · obtain ⟨hes, hbody⟩ := ih h
      exact ⟨hes.pass, hbody.pass⟩
    · split at h
      · obtain ⟨qs, hqs, h⟩ := Traced.bind_eq_ok.1 h
        obtain ⟨hes, hbody⟩ := ih h
        exact ⟨.first hqs hes, hbody.pass⟩
      · split at h
        · obtain ⟨e, he, h⟩ := Traced.bind_eq_ok.1 h
          obtain ⟨hes, hbody⟩ := ih h
          exact ⟨hes.pass, .first (buildsSome_some he) hbody⟩
        · simp at h

theorem lambdaParts_eq_error {es : List Expr} {body : Option Expr}
    (h : (lambdaParts c es body ps).result = .error e) : FailsAt c ps e := by
  induction ps generalizing es body with
  | nil => cases h
  | cons p ps ih =>
    simp only [lambdaParts] at h
    split at h
    · exact .later (ih h)
    · split at h
      · exact .bind h .parameters fun _ => ih
      · split at h
        · exact .bind h .expression fun _ => ih
        · exact .refuse h

/-- Where the bounds of a slice come from. -/
structure Bounds.ReadFrom (c : Context) (ps : List Part) (bs bs' : Bounds) : Prop where
  start : Scribe.ReadFrom (BuildsSome (·.expression c)) ps bs.start bs'.start
  stop : Scribe.ReadFrom (BuildsSome (·.expression c)) ps bs.stop bs'.stop
  step : Scribe.ReadFrom (BuildsSome (·.expression c)) ps bs.step bs'.step

/-- Every bound was there before or is built from a part. -/
theorem buildBounds_eq_ok {place : Nat} {bs bs' : Bounds}
    (h : (buildBounds c place bs ps).result = .ok bs') : bs.ReadFrom c ps bs' := by
  induction ps generalizing place bs with
  | nil =>
    obtain rfl := Traced.pure_eq_ok.1 h
    exact ⟨.kept, .kept, .kept⟩
  | cons p ps ih =>
    simp only [buildBounds] at h
    split at h
    · have hbs := ih h
      exact ⟨hbs.start.pass, hbs.stop.pass, hbs.step.pass⟩
    · obtain ⟨e, he, h⟩ := Traced.bind_eq_ok.1 h
      split at h
      · rename_i hset
        have hbs := ih h
        unfold Bounds.set? at hset
        split at hset <;> cases hset
        · exact ⟨.first (buildsSome_some he) hbs.start, hbs.stop.pass, hbs.step.pass⟩
        · exact ⟨hbs.start.pass, .first (buildsSome_some he) hbs.stop, hbs.step.pass⟩
        · exact ⟨hbs.start.pass, hbs.stop.pass, .first (buildsSome_some he) hbs.step⟩
      · cases h

/-- A property of all bounds that were read. -/
theorem Bounds.ReadFrom.forall_bounds {P : Expr → Prop} {bs bs' : Bounds}
    (h : bs.ReadFrom c ps bs')
    (hbs : ∀ e, e ∈ bs.start ∨ e ∈ bs.stop ∨ e ∈ bs.step → P e)
    (hps : ∀ p ∈ ps, ∀ e, (p.expression c).result = .ok e → P e) :
    ∀ e, e ∈ bs'.start ∨ e ∈ bs'.stop ∨ e ∈ bs'.step → P e := by
  rintro e (he | he | he)
  · exact h.start.forall_some (fun x hx => hbs x (.inl hx)) hps e he
  · exact h.stop.forall_some (fun x hx => hbs x (.inr (.inl hx))) hps e he
  · exact h.step.forall_some (fun x hx => hbs x (.inr (.inr hx))) hps e he

/-! ## Assignments -/

/-- Where the operator, the type and the value of an assignment come
from. -/
structure AssignmentTail.ReadFrom (c : Context) (ps : List Part) (t t' : AssignmentTail) :
    Prop where
  operator : Scribe.ReadFrom (fun p op => assignmentOperators.contains p.kind.name = true ∧
    op = p.kind.name) ps t.operator t'.operator
  type : Scribe.ReadFrom SpellsType ps t.type t'.type
  value : Scribe.ReadFrom (BuildsSome (·.expression c)) ps t.value t'.value

/-- What stands behind the target was there before or comes from a part. -/
theorem assignmentTail_eq_ok {t t' : AssignmentTail}
    (h : (assignmentTail c t ps).result = .ok t') : t.ReadFrom c ps t' := by
  induction ps generalizing t with
  | nil =>
    obtain rfl := Traced.pure_eq_ok.1 h
    exact ⟨.kept, .kept, .kept⟩
  | cons p ps ih =>
    simp only [assignmentTail] at h
    split at h
    · have ht := ih h
      exact ⟨ht.operator.pass, ht.type.pass, ht.value.pass⟩
    · split at h
      · rename_i hkind
        have ht := ih h
        exact ⟨ht.operator.pass, .first ⟨hkind, rfl⟩ ht.type, ht.value.pass⟩
      · split at h
        · rename_i hop
          have ht := ih h
          exact ⟨.first ⟨hop, rfl⟩ ht.operator, ht.type.pass, ht.value.pass⟩
        · obtain ⟨e, he, h⟩ := Traced.bind_eq_ok.1 h
          have ht := ih h
          exact ⟨ht.operator.pass, ht.type.pass, .first (buildsSome_some he) ht.value⟩

theorem assignmentTail_eq_error {t : AssignmentTail}
    (h : (assignmentTail c t ps).result = .error e) : FailsAt c ps e := by
  induction ps generalizing t with
  | nil => cases h
  | cons p ps ih =>
    simp only [assignmentTail] at h
    split at h
    · exact .later (ih h)
    · split at h
      · exact .later (ih h)
      · split at h
        · exact .later (ih h)
        · exact .bind h .expression fun _ => ih

/-! ## Control flow -/

/-- Where the test and the body of a clause come from. -/
theorem choiceParts_eq_ok {test test' : Option Expr} {body body' : List Stmt}
    (h : (choiceParts c test body ps).result = .ok (.mk test' body')) :
    ReadFrom (BuildsSome (·.expression c)) ps test test' ∧
      ReadFrom (BuildsAll (·.body c)) ps body body' := by
  induction ps generalizing test body with
  | nil =>
    obtain ⟨rfl, rfl⟩ := Choice.mk.inj (Traced.pure_eq_ok.1 h)
    exact ⟨.kept, .kept⟩
  | cons p ps ih =>
    simp only [choiceParts] at h
    split at h
    · obtain ⟨htest, hbody⟩ := ih h
      exact ⟨htest.pass, hbody.pass⟩
    · split at h
      · obtain ⟨ss, hss, h⟩ := Traced.bind_eq_ok.1 h
        obtain ⟨htest, hbody⟩ := ih h
        exact ⟨htest.pass, .first hss hbody⟩
      · split at h
        · obtain ⟨e, he, h⟩ := Traced.bind_eq_ok.1 h
          obtain ⟨htest, hbody⟩ := ih h
          exact ⟨.first (buildsSome_some he) htest, hbody.pass⟩
        · simp at h

theorem choiceParts_eq_error {test : Option Expr} {body : List Stmt}
    (h : (choiceParts c test body ps).result = .error e) : FailsAt c ps e := by
  induction ps generalizing test body with
  | nil => cases h
  | cons p ps ih =>
    simp only [choiceParts] at h
    split at h
    · exact .later (ih h)
    · split at h
      · exact .bind h .body fun _ => ih
      · split at h
        · exact .bind h .expression fun _ => ih
        · exact .refuse h

/-- Where the parts of a loop over a container come from. -/
structure ForParts.ReadFrom (c : Context) (ps : List Part) (f f' : ForParts) : Prop where
  left : Scribe.ReadFrom (BuildsSome (·.target c)) ps f.left f'.left
  right : Scribe.ReadFrom (BuildsSome (·.expression c)) ps f.right f'.right
  body : Scribe.ReadFrom (BuildsAll (·.body c)) ps f.body f'.body

/-- Target and container are built from parts, and so is the body. -/
theorem forParts_eq_ok {f f' : ForParts} (h : (forParts c f ps).result = .ok f') :
    f.ReadFrom c ps f' := by
  induction ps generalizing f with
  | nil =>
    obtain rfl := Traced.pure_eq_ok.1 h
    exact ⟨.kept, .kept, .kept⟩
  | cons p ps ih =>
    simp only [forParts] at h
    split at h
    · have hf := ih h
      exact ⟨hf.left.pass, hf.right.pass, hf.body.pass⟩
    · split at h
      · have hf := ih h
        exact ⟨hf.left.pass, hf.right.pass, hf.body.pass⟩
      · split at h
        · obtain ⟨ss, hss, h⟩ := Traced.bind_eq_ok.1 h
          have hf := ih h
          exact ⟨hf.left.pass, hf.right.pass, .first hss hf.body⟩
        · split at h
          · obtain ⟨e, he, h⟩ := Traced.bind_eq_ok.1 h
            have hf := ih h
            exact ⟨.first (buildsSome_some he) hf.left, hf.right.pass, hf.body.pass⟩
          · split at h
            · obtain ⟨e, he, h⟩ := Traced.bind_eq_ok.1 h
              have hf := ih h
              exact ⟨hf.left.pass, .first (buildsSome_some he) hf.right, hf.body.pass⟩
            · simp at h

theorem forParts_eq_error {f : ForParts} (h : (forParts c f ps).result = .error e) :
    FailsAt c ps e := by
  induction ps generalizing f with
  | nil => cases h
  | cons p ps ih =>
    simp only [forParts] at h
    split at h
    · exact .later (ih h)
    · split at h
      · exact .later (ih h)
      · split at h
        · exact .bind h .body fun _ => ih
        · split at h
          · exact .bind h .target fun _ => ih
          · split at h
            · exact .bind h .expression fun _ => ih
            · exact .refuse h

/-- Where the test and the body of a loop under a condition come from. -/
theorem whileParts_eq_ok {test test' : Option Expr} {body body' : List Stmt}
    (h : (whileParts c test body ps).result = .ok (test', body')) :
    ReadFrom (BuildsSome (·.expression c)) ps test test' ∧
      ReadFrom (BuildsAll (·.body c)) ps body body' := by
  induction ps generalizing test body with
  | nil =>
    obtain ⟨rfl, rfl⟩ := Prod.mk.inj (Traced.pure_eq_ok.1 h)
    exact ⟨.kept, .kept⟩
  | cons p ps ih =>
    simp only [whileParts] at h
    split at h
    · obtain ⟨htest, hbody⟩ := ih h
      exact ⟨htest.pass, hbody.pass⟩
    · split at h
      · obtain ⟨ss, hss, h⟩ := Traced.bind_eq_ok.1 h
        obtain ⟨htest, hbody⟩ := ih h
        exact ⟨htest.pass, .first hss hbody⟩
      · split at h
        · obtain ⟨e, he, h⟩ := Traced.bind_eq_ok.1 h
          obtain ⟨htest, hbody⟩ := ih h
          exact ⟨.first (buildsSome_some he) htest, hbody.pass⟩
        · simp at h

theorem whileParts_eq_error {test : Option Expr} {body : List Stmt}
    (h : (whileParts c test body ps).result = .error e) : FailsAt c ps e := by
  induction ps generalizing test body with
  | nil => cases h
  | cons p ps ih =>
    simp only [whileParts] at h
    split at h
    · exact .later (ih h)
    · split at h
      · exact .bind h .body fun _ => ih
      · split at h
        · exact .bind h .expression fun _ => ih
        · exact .refuse h

/-! ## Definitions -/

/-- Where the parts of a function come from. -/
structure FunctionParts.ReadFrom (c : Context) (ps : List Part) (f f' : FunctionParts) : Prop where
  name : Scribe.ReadFrom (fun p name => p.kind = .identifier ∧ name = p.text) ps f.name f'.name
  parameters : Scribe.ReadFrom (BuildsAll (·.parameters c)) ps f.parameters f'.parameters
  returnType : Scribe.ReadFrom SpellsType ps f.returnType f'.returnType
  body : Scribe.ReadFrom (BuildsAll (·.body c)) ps f.body f'.body

/-- Every field of a function was there before or comes from a part. -/
theorem functionParts_eq_ok {f f' : FunctionParts}
    (h : (functionParts c f ps).result = .ok f') : f.ReadFrom c ps f' := by
  induction ps generalizing f with
  | nil =>
    obtain rfl := Traced.pure_eq_ok.1 h
    exact ⟨.kept, .kept, .kept, .kept⟩
  | cons p ps ih =>
    simp only [functionParts] at h
    split at h
    · have hf := ih h
      exact ⟨hf.name.pass, hf.parameters.pass, hf.returnType.pass, hf.body.pass⟩
    · split at h
      · rename_i hkind
        have hf := ih h
        exact ⟨.first ⟨hkind, rfl⟩ hf.name, hf.parameters.pass, hf.returnType.pass,
          hf.body.pass⟩
      · obtain ⟨es, hes, h⟩ := Traced.bind_eq_ok.1 h
        have hf := ih h
        exact ⟨hf.name.pass, .first hes hf.parameters, hf.returnType.pass, hf.body.pass⟩
      · rename_i hkind
        have hf := ih h
        exact ⟨hf.name.pass, hf.parameters.pass, .first ⟨hkind, rfl⟩ hf.returnType,
          hf.body.pass⟩
      · obtain ⟨ss, hss, h⟩ := Traced.bind_eq_ok.1 h
        have hf := ih h
        exact ⟨hf.name.pass, hf.parameters.pass, hf.returnType.pass, .first hss hf.body⟩
      · simp at h

theorem functionParts_eq_error {f : FunctionParts}
    (h : (functionParts c f ps).result = .error e) : FailsAt c ps e := by
  induction ps generalizing f with
  | nil => cases h
  | cons p ps ih =>
    simp only [functionParts] at h
    split at h
    · exact .later (ih h)
    · split at h
      · exact .later (ih h)
      · exact .bind h .parameters fun _ => ih
      · exact .later (ih h)
      · exact .bind h .body fun _ => ih
      · exact .refuse h

/-- Where the parts of a class come from. -/
structure ClassParts.ReadFrom (c : Context) (ps : List Part) (f f' : ClassParts) : Prop where
  name : Scribe.ReadFrom (fun p name => p.kind = .identifier ∧ name = p.text) ps f.name f'.name
  arguments : Scribe.ReadFrom (BuildsSome (·.arguments c)) ps f.arguments f'.arguments
  body : Scribe.ReadFrom (BuildsAll (·.body c)) ps f.body f'.body

theorem classParts_eq_ok {f f' : ClassParts} (h : (classParts c f ps).result = .ok f') :
    f.ReadFrom c ps f' := by
  induction ps generalizing f with
  | nil =>
    obtain rfl := Traced.pure_eq_ok.1 h
    exact ⟨.kept, .kept, .kept⟩
  | cons p ps ih =>
    simp only [classParts] at h
    split at h
    · have hf := ih h
      exact ⟨hf.name.pass, hf.arguments.pass, hf.body.pass⟩
    · split at h
      · rename_i hkind
        have hf := ih h
        exact ⟨.first ⟨hkind, rfl⟩ hf.name, hf.arguments.pass, hf.body.pass⟩
      · obtain ⟨es, hes, h⟩ := Traced.bind_eq_ok.1 h
        have hf := ih h
        exact ⟨hf.name.pass, .first (buildsSome_some hes) hf.arguments, hf.body.pass⟩
      · obtain ⟨ss, hss, h⟩ := Traced.bind_eq_ok.1 h
        have hf := ih h
        exact ⟨hf.name.pass, hf.arguments.pass, .first hss hf.body⟩
      · simp at h

theorem classParts_eq_error {f : ClassParts} (h : (classParts c f ps).result = .error e) :
    FailsAt c ps e := by
  induction ps generalizing f with
  | nil => cases h
  | cons p ps ih =>
    simp only [classParts] at h
    split at h
    · exact .later (ih h)
    · split at h
      · exact .later (ih h)
      · exact .bind h .arguments fun _ => ih
      · exact .bind h .body fun _ => ih
      · exact .refuse h

end Branch

end Scribe
