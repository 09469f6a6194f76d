import Scribe.Proofs.Emit.Assignment
import Scribe.Proofs.Emit.Domain.Expression

/-!
# Which statements can be written

A statement is refused for its own shape (`Stmt.Offends`) or because an
expression that it writes offends. An assignment without a value writes
nothing outside class bodies, so nothing in it counts (`Stmt.written`).

`Stmt.decides_emit` goes along the syntax: writing a statement decides
whether something it holds is refused.
-/

namespace Scribe

variable {s : Scope} {st : Stmt} {e : Expr}

/-! ## What cannot be written -/

/-- The plain name `object`. -/
def Expr.isObject : Expr → Bool
  | .reference "object" none _ => true
  | _ => false

/-- **A statement that cannot be written in its scope**, whatever its
expressions are. -/
inductive Stmt.Offends (s : Scope) : Stmt → Prop
  /-- A base class cannot be passed by name. -/
  | namedBase {name key : String} {body : List Stmt} {arguments : List Expr}
      {decorators : List String} {value : Expr} {loc loc' : Option Location} :
      .keywordArgument key value loc' ∈ arguments →
      Offends s (.classDefinition name body (some arguments) decorators loc)
  /-- Base classes cannot be spread. -/
  | starredBase {name base : String} {body : List Stmt} {arguments : List Expr}
      {decorators : List String} {splat : Splat} {loc loc' : Option Location} :
      .reference base (some splat) loc' ∈ arguments →
      Offends s (.classDefinition name body (some arguments) decorators loc)
  /-- There cannot be two base classes, not counting `object`. -/
  | secondBase {name : String} {body : List Stmt} {arguments : List Expr}
      {decorators : List String} {loc : Option Location} :
      2 ≤ arguments.countP (!·.isObject) →
      Offends s (.classDefinition name body (some arguments) decorators loc)
  /-- A class cannot have such a member. -/
  | member {name : String} {body : List Stmt} {arguments : Option (List Expr)}
      {decorators : List String} {loc : Option Location} {item : Stmt} : item ∈ body →
      item.kind ∉ [.functionDefinition, .assignment, .comment, .passStatement] →
      Offends s (.classDefinition name body arguments decorators loc)
  /-- Only a name can be a field. -/
  | fieldTarget {left : Expr} {right : Option Expr} {operator : String} {type : Option String}
      {loc : Option Location} : s.kind = .classBody → left.kind ≠ .reference →
      Offends s (.assignment left right operator type loc)
  /-- A field cannot be updated in the class body. -/
  | fieldOperator {left : Expr} {right : Option Expr} {operator : String} {type : Option String}
      {loc : Option Location} : s.kind = .classBody → operator ≠ "=" →
      Offends s (.assignment left right operator type loc)
  /-- A choice without a test comes last and not first. -/
  | choice {choices : List Choice} {loc : Option Location} {i : Nat} {body : List Stmt} :
      choices[i]? = some (.mk none body) → i = 0 ∨ i + 1 < choices.length →
      Offends s (.conditional choices loc)
  /-- Only a call or the name of a class can be thrown. -/
  | raising {value : Expr} {loc : Option Location} :
      value.kind ∉ [.call, .reference, .memberExpression] → Offends s (.raising value loc)

/-- The expressions that a statement writes in its scope, each with its
role. -/
def Stmt.written (s : Scope) : Stmt → List (Role × Expr)
  | .assignment left none operator type loc =>
    if s.kind = .classBody then (Stmt.assignment left none operator type loc).parts else []
  | st => st.parts

/-- Nothing that the statement holds is refused. -/
def Stmt.Clean (s : Scope) (st : Stmt) : Prop :=
  ∀ d s' inner, st.Holds s d s' inner →
    ¬ inner.Offends s' ∧ ∀ q ∈ inner.written s', q.2.Clean q.1

theorem Stmt.clean_iff : st.Clean s ↔
    (¬ st.Offends s ∧ ∀ q ∈ st.written s, q.2.Clean q.1) ∧ ∀ q ∈ st.inner s, q.2.Clean q.1 :=
  Stmt.forall_holds_iff
    (P := fun s' inner => ¬ inner.Offends s' ∧ ∀ q ∈ inner.written s', q.2.Clean q.1)

/-! ## Classes -/

/-- A base class that is neither named nor starred. -/
def Expr.isPlainBase : Expr → Bool
  | .keywordArgument .. => false
  | .reference _ (some _) _ => false
  | _ => true

/-- The bases are kept exactly if all are plain, and then all but `object`
are. -/
theorem decides_keptBases (bases : List Expr) :
    (keptBases bases).Decides (∀ b ∈ bases, b.isPlainBase = true) ∧
      ∀ kept, keptBases bases = .ok kept → kept = bases.filter (!·.isObject) := by
  induction bases with
  | nil =>
    exact ⟨(Result.Decides.of_ok ⟨[], rfl⟩).congr (by simp), fun _ h => (Except.ok.inj h).symm⟩
  | cons base bases ih =>
    obtain ⟨hdecides, hkept⟩ := ih
    unfold keptBases
    -- a named and a starred base are refused, `object` is dropped, and any other is kept
    split
    · refine ⟨(Result.Decides.refused _ _ _).congr (by simp [Expr.isPlainBase]), ?_⟩
      rintro kept ⟨⟩
    · refine ⟨(Result.Decides.refused _ _ _).congr (by simp [Expr.isPlainBase]), ?_⟩
      rintro kept ⟨⟩
    · refine ⟨hdecides.congr (by simp [Expr.isPlainBase]), fun kept h => ?_⟩
      rw [hkept kept h, List.filter_cons_of_neg (by simp [Expr.isObject])]
    · rename_i hnamed hstarred hobject
      have hplain : base.isPlainBase = true := by
        unfold Expr.isPlainBase
        split <;> simp_all
      have hother : base.isObject = false := by
        unfold Expr.isObject
        split <;> simp_all
      refine ⟨(hdecides.then_ok fun kept _ => ⟨_, rfl⟩).congr ?_, fun kept h => ?_⟩
      · rw [List.forall_mem_cons, and_iff_right hplain]
      · simp only [Result.bind_eq_ok, Result.pure_eq_ok] at h
        obtain ⟨rest, hrest, rfl⟩ := h
        rw [hkept rest hrest, List.filter_cons_of_pos (by simp [hother])]

theorem clean_object {r : Role} (h : e.isObject = true) : e.Clean r := by
  unfold Expr.isObject at h
  split at h
  · exact clean_reference _ _ _ _
  · cases h

/-- **The opening line of a class.** -/
theorem decides_extendsText (arguments : Option (List Expr))
    (h : ∀ b ∈ arguments.getD [], (b.emit s.reading).Decides (b.Clean .argument)) :
    (extendsText s arguments).Decides
      ((∀ b ∈ arguments.getD [], b.isPlainBase = true) ∧
        (arguments.getD []).countP (!·.isObject) < 2 ∧
        ∀ b ∈ arguments.getD [], b.Clean .argument) := by
  unfold extendsText
  generalize arguments.getD [] = bases at h ⊢
  obtain ⟨hdecides, hkept⟩ := decides_keptBases bases
  refine hdecides.bind fun kept hok => ?_
  have hlist := hkept kept hok
  -- dropping `object` loses nothing: it never offends
  have hclean : (∀ b ∈ bases, b.Clean .argument) ↔ ∀ b ∈ kept, b.Clean .argument := by
    constructor
    · intro hall b hb
      rw [hlist] at hb
      exact hall b (List.mem_filter.1 hb).1
    · intro hall b hb
      by_cases hobject : b.isObject = true
      · exact clean_object hobject
      · exact hall b (by rw [hlist]; exact List.mem_filter.2 ⟨hb, by simpa using hobject⟩)
  rw [hclean, List.countP_eq_length_filter, ← hlist]
  -- no base, one base, or several, which are refused
  match kept, hlist with
  | [], _ => exact (Result.Decides.of_ok ⟨_, rfl⟩).congr (by simp)
  | [base], hlist =>
    have hbase : base ∈ bases.filter (!·.isObject) := hlist ▸ List.mem_singleton_self base
    exact ((h base (List.mem_filter.1 hbase).1).then_ok fun t _ => ⟨_, rfl⟩).congr (by simp)
  | _ :: _ :: _, _ =>
    refine (Result.Decides.refused _ _ _).congr (iff_of_false id fun h => ?_)
    exact absurd h.1 (by simp)

/-- The statements that can be members of a class, by their kinds. -/
theorem Stmt.isMember_iff : st.isMember = true ↔
    st.kind ∈ [.functionDefinition, .assignment, .comment, .passStatement] := by
  cases st with
  | expression value =>
    cases value with
    | number kind text loc =>
      cases kind <;> simp [Stmt.isMember, Stmt.kind, Expr.kind, NumberKind.node]
    | sequence kind items loc =>
      cases kind <;> simp [Stmt.isMember, Stmt.kind, Expr.kind, SequenceKind.node]
    | _ => simp [Stmt.isMember, Stmt.kind, Expr.kind]
  | simple kind loc => cases kind <;> simp [Stmt.isMember, Stmt.kind, SimpleKind.node]
  | _ => simp [Stmt.isMember, Stmt.kind]

/-- The names by their kind. -/
theorem Expr.eq_reference (h : e.kind = .reference) :
    ∃ name splat loc, e = .reference name splat loc := by
  cases e with
  | reference name splat loc => exact ⟨name, splat, loc, rfl⟩
  | number kind text loc => cases kind <;> cases h
  | sequence kind items loc => cases kind <;> cases h
  | _ => cases h

/-- The names that are given a value, by their kind. -/
theorem isField_iff {left : Expr} {operator : String} :
    IsField left operator ↔ left.kind = .reference ∧ operator = "=" := by
  constructor
  · rintro ⟨name, splat, loc, rfl, rfl⟩
    exact ⟨rfl, rfl⟩
  · rintro ⟨hkind, hoperator⟩
    obtain ⟨name, splat, loc, hleft⟩ := Expr.eq_reference hkind
    exact ⟨name, splat, loc, hleft, hoperator⟩

theorem exists_mappedType {type : Option String} (h : ∀ t ∈ type, Denotes t) :
    ∃ t, mappedType type = .ok t := by
  cases type with
  | none => exact ⟨none, rfl⟩
  | some spelling =>
    obtain ⟨t, ht⟩ := h spelling rfl
    rw [mappedType]
    split
    · exact ⟨none, rfl⟩
    · exact ⟨some t, by rw [ht]; rfl⟩

theorem exists_fieldType {type : Option String} (h : ∀ t ∈ type, Denotes t) :
    ∃ t, fieldType type = .ok t := by
  cases type with
  | none => exact ⟨"", rfl⟩
  | some spelling =>
    obtain ⟨t, ht⟩ := h spelling rfl
    rw [fieldType]
    split
    · exact ⟨"", rfl⟩
    · exact ⟨": " ++ t, by rw [ht]; rfl⟩

theorem decides_fieldValue {right : Option Expr}
    (h : ∀ e ∈ right, (e.emit s.reading).Decides (e.Clean .value)) :
    (fieldValue s right).Decides (∀ e ∈ right, e.Clean .value) := by
  cases right with
  | none => exact (Result.Decides.of_ok ⟨"", rfl⟩).congr (by simp)
  | some e => exact ((h e rfl).map _).congr (by simp)

/-- An assignment in a class body. -/
theorem decides_emitField {left : Expr} {right : Option Expr} {operator : String}
    {type : Option String} (htype : ∀ t ∈ type, Denotes t)
    (hright : ∀ e ∈ right, (e.emit s.reading).Decides (e.Clean .value)) :
    (emitField s left right operator type).Decides
      ((left.kind = .reference ∧ operator = "=") ∧ ∀ e ∈ right, e.Clean .value) := by
  rw [← isField_iff]
  by_cases hfield : IsField left operator
  · rw [and_iff_right hfield]
    obtain ⟨name, splat, loc, rfl, rfl⟩ := hfield
    rw [emitField_eq]
    obtain ⟨t, ht⟩ := exists_fieldType htype
    rw [ht]
    exact (decides_fieldValue hright).then_ok fun v _ => ⟨_, rfl⟩
  · rw [emitField_refused s hfield]
    exact (Result.Decides.refused _ _ _).congr (iff_of_false id fun h => hfield h.1)

theorem decides_assignedText {left : Expr} {right : Option Expr} {operator : String}
    (hleft : (left.emit s.assigning).Decides (left.Clean .target))
    (hright : ∀ e ∈ right, (e.emit s.reading).Decides (e.Clean .value)) :
    (assignedText s left right operator).Decides
      (∀ e ∈ right, left.Clean .target ∧ e.Clean .value) := by
  cases right with
  | none => exact (Result.Decides.of_ok ⟨_, rfl⟩).congr (by simp)
  | some e =>
    exact (hleft.bind fun l _ => (hright e rfl).then_ok fun r _ => ⟨_, rfl⟩).congr (by simp)

/-- An assignment outside class bodies. -/
theorem decides_emitAssignment {left : Expr} {right : Option Expr} {operator : String}
    {type : Option String} (htype : ∀ t ∈ type, Denotes t)
    (hleft : (left.emit s.assigning).Decides (left.Clean .target))
    (hright : ∀ e ∈ right, (e.emit s.reading).Decides (e.Clean .value)) :
    (emitAssignment s left right operator type).Decides
      (∀ e ∈ right, left.Clean .target ∧ e.Clean .value) := by
  obtain ⟨t, ht⟩ := exists_mappedType htype
  rw [emitAssignment_eq, ht]
  exact decides_assignedText hleft hright

/-- A mapped return type. -/
theorem exists_returnsText (isConstructor : Bool) {returnType : Option String}
    (h : ∀ t ∈ returnType, Denotes t) :
    ∃ text, returnsText isConstructor returnType = .ok text := by
  cases returnType with
  | none => exact ⟨_, rfl⟩
  | some spelling =>
    obtain ⟨t, ht⟩ := h spelling rfl
    rw [returnsText]
    split
    · exact ⟨_, rfl⟩
    · exact ⟨_, by rw [ht]; rfl⟩

theorem decides_emitReturn {value : Option Expr}
    (h : ∀ e ∈ value, (e.emit s.reading).Decides (e.Clean .value)) :
    (emitReturn s value).Decides (∀ e ∈ value, e.Clean .value) := by
  cases value with
  | none => exact (Result.Decides.of_ok ⟨_, rfl⟩).congr (by simp)
  | some e =>
    refine ((h e rfl).then_ok fun t _ => ?_).congr (by simp)
    split <;> exact ⟨_, rfl⟩

/-- A thrown error. -/
theorem decides_emitRaise {value : Expr}
    (h : (value.emit s.reading).Decides (value.Clean .value)) :
    (emitRaise s value).Decides
      (value.Clean .value ∧ value.kind ∈ [.call, .reference, .memberExpression]) := by
  unfold emitRaise
  refine h.bind fun t _ => ?_
  cases value with
  | call callee arguments loc => exact (Result.Decides.of_ok ⟨_, rfl⟩).congr (by simp [Expr.kind])
  | reference name splat loc => exact (Result.Decides.of_ok ⟨_, rfl⟩).congr (by simp [Expr.kind])
  | member object property loc => exact (Result.Decides.of_ok ⟨_, rfl⟩).congr (by simp [Expr.kind])
  | number kind text loc =>
    refine (Result.Decides.refused _ _ _).congr ?_
    cases kind <;> simp [Expr.kind, NumberKind.node]
  | sequence kind items loc =>
    refine (Result.Decides.refused _ _ _).congr ?_
    cases kind <;> simp [Expr.kind, SequenceKind.node]
  | _ => exact (Result.Decides.refused _ _ _).congr (by simp [Expr.kind])

/-! ## Bodies -/

/-- A body is written exactly if all its statements are. -/
theorem decides_emitBody {body : List Stmt} {P : Stmt → Prop}
    (h : ∀ st ∈ body, (st.emit s).Decides (P st)) :
    (Stmt.emitBody s body).Decides (∀ st ∈ body, P st) := by
  induction body with
  | nil => exact (Result.Decides.of_ok ⟨_, rfl⟩).congr (by simp)
  | cons st body ih =>
    have hbody := ih fun b hb => h b (List.mem_cons_of_mem _ hb)
    rw [Stmt.emitBody]
    refine ((h st (List.mem_cons_self ..)).bind fun a _ =>
      hbody.then_ok fun b _ => ⟨_, rfl⟩).congr ?_
    exact List.forall_mem_cons.symm

theorem decides_emitMembers {body : List Stmt} {P : Stmt → Prop}
    (h : ∀ st ∈ body, (st.emit s).Decides (P st)) :
    (Stmt.emitMembers s body).Decides (∀ st ∈ body, st.isMember = true ∧ P st) := by
  induction body with
  | nil => exact (Result.Decides.of_ok ⟨_, rfl⟩).congr (by simp)
  | cons st body ih =>
    have hbody := ih fun b hb => h b (List.mem_cons_of_mem _ hb)
    rw [Stmt.emitMembers, List.forall_mem_cons]
    split
    · rename_i hmember
      exact (Result.Decides.refused _ _ _).congr (by simp_all)
    · rename_i hmember
      refine ((h st (List.mem_cons_self ..)).bind fun a _ =>
        hbody.then_ok fun b _ => ⟨_, rfl⟩).congr ?_
      rw [and_iff_right (a := st.isMember = true) (by simpa using hmember)]

/-- A choice without a test comes last, and not first if nothing precedes
the choices. -/
def Choice.Ordered (first : Bool) (choices : List Choice) : Prop :=
  ∀ i body, choices[i]? = some (.mk none body) → i + 1 = choices.length ∧ ¬ (first = true ∧ i = 0)

theorem Choice.ordered_cons {first : Bool} {test : Option Expr} {body : List Stmt}
    {choices : List Choice} : Choice.Ordered first (.mk test body :: choices) ↔
      ¬ (test.isNone && (first || !choices.isEmpty)) = true ∧ Choice.Ordered false choices := by
  constructor
  · intro h
    refine ⟨fun hbad => ?_, fun i b hi => ?_⟩
    · cases test with
      | some e => simp at hbad
      | none =>
        obtain ⟨hlast, hfirst⟩ := h 0 body rfl
        have hnil : choices = [] := List.length_eq_zero_iff.1 (by simpa using hlast.symm)
        simp_all
    · obtain ⟨hlast, -⟩ := h (i + 1) b (by simpa using hi)
      exact ⟨by simpa using hlast, by simp⟩
  · rintro ⟨hhead, htail⟩ i b hi
    cases i with
    | zero =>
      obtain ⟨rfl, rfl⟩ := Choice.mk.inj (Option.some.inj hi)
      simp_all
    | succ i =>
      obtain ⟨hlast, -⟩ := htail i b (by simpa using hi)
      exact ⟨by simpa using hlast, by simp⟩

/-- A choice, given whether it is the first and the last one. -/
theorem decides_choice {loc : Option Location} {first last : Bool} {test : Option Expr}
    {body : List Stmt} {P : Stmt → Prop}
    (htest : ∀ e ∈ test, (e.emit s.reading).Decides (e.Clean .value))
    (hbody : ∀ st ∈ body, (st.emit s).Decides (P st)) :
    ((Choice.mk test body).emit s loc first last).Decides
      (¬ (test.isNone && (first || !last)) = true ∧
        (∀ e ∈ test, e.Clean .value) ∧ ∀ st ∈ body, P st) := by
  rw [Choice.emit]
  split
  · rename_i hbad
    exact (Result.Decides.refused _ _ _).congr (iff_of_false id fun h => h.1 hbad)
  · rename_i hgood
    exact ((decides_emitOption htest).bind fun t _ =>
      (decides_emitBody hbody).then_ok fun b _ => ⟨_, rfl⟩).congr (and_iff_right hgood).symm

theorem decides_emitChoices (loc : Option Location) (first : Bool) {choices : List Choice}
    {P : Stmt → Prop}
    (htest : ∀ e ∈ Choice.tests choices, (e.emit s.reading).Decides (e.Clean .value))
    (hbody : ∀ st ∈ Choice.bodies choices, (st.emit s).Decides (P st)) :
    (Stmt.emitChoices s loc first choices).Decides (Choice.Ordered first choices ∧
      (∀ e ∈ Choice.tests choices, e.Clean .value) ∧ ∀ st ∈ Choice.bodies choices, P st) := by
  induction choices generalizing first with
  | nil =>
    refine (Result.Decides.of_ok ⟨_, rfl⟩).congr ?_
    simp [Choice.Ordered, Choice.tests, Choice.bodies]
  | cons c choices ih =>
    obtain ⟨test, body⟩ := c
    simp only [Choice.tests, Choice.bodies, List.forall_mem_append, Option.mem_toList]
      at htest hbody ⊢
    rw [Stmt.emitChoices, Choice.ordered_cons]
    refine ((decides_choice htest.1 hbody.1).bind fun a _ =>
      (ih false htest.2 hbody.2).then_ok fun b _ => ⟨_, rfl⟩).congr ?_
    constructor
    · rintro ⟨⟨hgood, ht, hb⟩, hordered, hts, hbs⟩
      exact ⟨⟨hgood, hordered⟩, ⟨ht, hts⟩, hb, hbs⟩
    · rintro ⟨⟨hgood, hordered⟩, ⟨ht, hts⟩, hb, hbs⟩
      exact ⟨⟨hgood, ht, hb⟩, hordered, hts, hbs⟩

/-! ## Statements -/

/-- The conditions on a field. -/
theorem not_offends_field_iff {left : Expr} {right : Option Expr} {operator : String}
    {type : Option String} {loc : Option Location} (hclass : s.kind = .classBody) :
    ¬ (Stmt.assignment left right operator type loc).Offends s ↔
      left.kind = .reference ∧ operator = "=" := by
  constructor
  · intro h
    exact ⟨Decidable.byContradiction fun hkind => h (.fieldTarget hclass hkind),
      Decidable.byContradiction fun hop => h (.fieldOperator hclass hop)⟩
  · rintro ⟨hkind, hop⟩ hoffends
    cases hoffends with
    | fieldTarget _ h => exact h hkind
    | fieldOperator _ h => exact h hop

/-- The conditions on a class. -/
theorem not_offends_class_iff {name : String} {body : List Stmt}
    {arguments : Option (List Expr)} {decorators : List String} {loc : Option Location} :
    ¬ (Stmt.classDefinition name body arguments decorators loc).Offends s ↔
      (∀ b ∈ arguments.getD [], b.isPlainBase = true) ∧
        (arguments.getD []).countP (!·.isObject) < 2 ∧ ∀ b ∈ body, b.isMember = true := by
  constructor
  · intro h
    refine ⟨fun b hb => ?_, ?_, fun b hb => ?_⟩
    · cases arguments with
      | none => cases hb
      | some arguments =>
        unfold Expr.isPlainBase
        split
        · exact absurd (.namedBase hb) h
        · exact absurd (.starredBase hb) h
        · rfl
    · cases arguments with
      | none => exact Nat.zero_lt_two
      | some arguments => exact Nat.lt_of_not_le fun htwo => h (.secondBase htwo)
    · exact Stmt.isMember_iff.2 (Decidable.byContradiction fun hkind => h (.member hb hkind))
  · rintro ⟨hplain, hsingle, hmember⟩ hoffends
    cases hoffends with
    | namedBase hb => exact absurd (hplain _ hb) (by simp [Expr.isPlainBase])
    | starredBase hb => exact absurd (hplain _ hb) (by simp [Expr.isPlainBase])
    | secondBase htwo => exact Nat.not_le_of_lt hsingle htwo
    | member hb hkind => exact hkind (Stmt.isMember_iff.1 (hmember _ hb))

theorem not_offends_conditional_iff {choices : List Choice} {loc : Option Location} :
    ¬ (Stmt.conditional choices loc).Offends s ↔ Choice.Ordered true choices := by
  constructor
  · intro h i body hi
    have hlength : i < choices.length := (List.getElem?_eq_some_iff.1 hi).1
    refine ⟨?_, fun hfirst => h (.choice hi (.inl hfirst.2))⟩
    by_cases hlast : i + 1 < choices.length
    · exact absurd (.choice hi (.inr hlast)) h
    · omega
  · rintro h hoffends
    cases hoffends with
    | choice hi hplace =>
      obtain ⟨hlast, hfirst⟩ := h _ _ hi
      rcases hplace with rfl | hplace
      · exact hfirst ⟨rfl, rfl⟩
      · omega

/-- The conditions of a statement: its own, those of its expressions and
those of its bodies. -/
theorem Result.Decides.of_statement {α : Type} {P : Prop} {x : Result α} (hx : x.Decides P)
    (hP : P ↔ (¬ st.Offends s ∧ ∀ q ∈ st.written s, q.2.Clean q.1) ∧
      ∀ q ∈ st.inner s, q.2.Clean q.1) : x.Decides (st.Clean s) :=
  hx.congr (hP.trans Stmt.clean_iff.symm)

theorem clean_of_isSingle (h : e.isSingle = true) : e.Clean .parameter := by
  unfold Expr.isSingle at h
  split at h
  · exact clean_reference _ _ _ _
  · exact Expr.clean_iff.2 ⟨Expr.not_offends rfl, List.forall_mem_nil _⟩
  · cases h

theorem clean_passed_iff {decorators : List String} {parameters : List Expr} :
    (∀ p ∈ s.passed decorators parameters, p.Clean .parameter) ↔
      ∀ p ∈ parameters, p.Clean .parameter := by
  rcases passed_cases s decorators parameters with hsame | ⟨receiver, hcons, hsingle⟩
  · rw [hsame]
  · rw [hcons, List.forall_mem_cons, and_iff_right (clean_of_isSingle hsingle), ← hcons]

/-- **Induction over bodies.** -/
@[elab_as_elim]
theorem Stmt.induction_inner {motive : Stmt → Prop}
    (step : ∀ st, (∀ s, ∀ q ∈ st.inner s, motive q.2) → motive st) (st : Stmt) : motive st := by
  induction st using Stmt.induction with
  | conditional choices loc ih =>
    refine step _ fun s q hq => ?_
    obtain ⟨b, hb, rfl⟩ := List.mem_map.1 hq
    obtain ⟨test, body, hc, hb⟩ := Choice.mem_bodies.1 hb
    exact ih test body hc b hb
  | _ =>
    refine step _ ?_
    clear step
    simp_all [Stmt.inner]

theorem Stmt.inner_target (hs : s.target = false) : ∀ q ∈ st.inner s, q.1.target = false := by
  cases st <;> simp [Stmt.inner, hs, Scope.enterFunction, Scope.enterClass]

theorem Stmt.inner_fits (h : st.fits = true) : ∀ q ∈ st.inner s, q.2.fits = true := fun q hq =>
  (Stmt.forall_holds_iff (P := fun _ inner => inner.fits = true)).1
    (fun _ _ _ hholds => hholds.fits h) |>.2 q hq 0 q.1 q.2 .self

/-- The parts of a statement are no indices. -/
theorem Stmt.parts_ne_index : ∀ q ∈ st.parts, q.1 ≠ .index := by
  cases st <;> simp [Stmt.parts]

/-- **What a statement holds decides**: its expressions in every scope that
fits their role, and the statements of its bodies in theirs. -/
structure Stmt.PartsDecide (s : Scope) (st : Stmt) : Prop where
  part : ∀ q ∈ st.parts, ∀ s' : Scope, s'.target = (q.1 == .target) →
    (q.2.emit s').Decides (q.2.Clean q.1)
  inner : ∀ q ∈ st.inner s, (q.2.emit q.1).Decides (q.2.Clean q.1)

section

variable {left right value : Expr} {body : List Stmt} {loc : Option Location}

/-- In a class body the target has to be a name, which is clean in itself. -/
theorem decides_field {right : Option Expr} {operator : String} {type : Option String}
    (hclass : s.kind = .classBody) (htype : ∀ t ∈ type, Denotes t)
    (h : (Stmt.assignment left right operator type loc).PartsDecide s) :
    (emitField s left right operator type).Decides
      ((Stmt.assignment left right operator type loc).Clean s) := by
  have hright : ∀ e ∈ right, (e.emit s.reading).Decides (e.Clean .value) := fun e he =>
    h.part (.value, e) (by simp [Stmt.parts, Option.mem_def.1 he]) s.reading rfl
  have hwritten : (Stmt.assignment left right operator type loc).written s =
      (.target, left) :: right.toList.map (.value, ·) := by
    cases right <;> simp [Stmt.written, Stmt.parts, hclass]
  refine .of_statement (decides_emitField htype hright) ?_
  rw [not_offends_field_iff hclass, hwritten]
  constructor
  · rintro ⟨hshape, hclean⟩
    obtain ⟨name, splat, loc', rfl⟩ := Expr.eq_reference hshape.1
    exact ⟨⟨hshape, by simpa [clean_reference] using hclean⟩, List.forall_mem_nil _⟩
  · rintro ⟨⟨hshape, hclean⟩, -⟩
    exact ⟨hshape, by simpa using (List.forall_mem_cons.1 hclean).2⟩

/-- Outside class bodies both sides count, if there is a value at all. -/
theorem decides_assigned {right : Option Expr} {operator : String} {type : Option String}
    (hclass : s.kind ≠ .classBody) (htype : ∀ t ∈ type, Denotes t)
    (h : (Stmt.assignment left right operator type loc).PartsDecide s) :
    (emitAssignment s left right operator type).Decides
      ((Stmt.assignment left right operator type loc).Clean s) := by
  have hleft := h.part (.target, left) (by simp [Stmt.parts]) s.assigning rfl
  have hright : ∀ e ∈ right, (e.emit s.reading).Decides (e.Clean .value) := fun e he =>
    h.part (.value, e) (by simp [Stmt.parts, Option.mem_def.1 he]) s.reading rfl
  have hoffends : ¬ (Stmt.assignment left right operator type loc).Offends s := by
    rintro ⟨⟩ <;> exact hclass ‹_›
  refine .of_statement (decides_emitAssignment htype hleft hright) ?_
  cases right <;> simp [Stmt.written, Stmt.parts, Stmt.inner, hoffends, hclass]

/-- A function decides if its parameters and its body do. A receiver is not
passed, but is clean in itself. -/
theorem decides_function {name : String} {parameters : List Expr} {returnType : Option String}
    {decorators : List String}
    (hfits : (Stmt.function name parameters body returnType decorators loc).fits = true)
    (hparameters : ∀ p ∈ parameters, p.Spelled Denotes) (htype : ∀ t ∈ returnType, Denotes t)
    (h : (Stmt.function name parameters body returnType decorators loc).PartsDecide s) :
    ((Stmt.function name parameters body returnType decorators loc).emit s).Decides
      ((Stmt.function name parameters body returnType decorators loc).Clean s) := by
  have hpassed : ∀ p ∈ s.passed decorators parameters, (Role.parameter, p) ∈
      (Stmt.function name parameters body returnType decorators loc).parts :=
    fun p hp => List.mem_map_of_mem (mem_of_mem_passed hp)
  have hspelled : ∀ p ∈ s.passed decorators parameters, p.Spelled Denotes :=
    fun p hp => hparameters p (mem_of_mem_passed hp)
  have hslots := decides_emitSlots (s := s.reading)
    (fun p hp => Role.Admits.fits (r := .parameter)
      (Stmt.parts_admitted hfits _ (hpassed p hp)) (by decide)) hspelled
    fun p hp => h.part _ (hpassed p hp) s.reading rfl
  have hbody := decides_emitBody fun b hb => h.inner (_, b) (List.mem_map_of_mem hb)
  have hoffends : ¬ (Stmt.function name parameters body returnType decorators loc).Offends s := by
    rintro ⟨⟩
  obtain ⟨returns, hreturns⟩ := exists_returnsText (s.isConstructor name) htype
  rw [Stmt.emit, splitParameters_eq]
  refine .of_statement (hslots.bind fun slots hok => Result.Decides.bind
    (.of_ok (exists_parameters _ hspelled hok)) fun result _ => hbody.then_ok fun b _ => ?_) ?_
  · exact ⟨_, by rw [hreturns]; rfl⟩
  · rw [clean_passed_iff]
    simp [Stmt.written, Stmt.parts, Stmt.inner, hoffends]

/-- A class decides by its bases and by its members, each of which has to be
one and clean. -/
theorem decides_class {name : String} {arguments : Option (List Expr)} {decorators : List String}
    (h : (Stmt.classDefinition name body arguments decorators loc).PartsDecide s) :
    ((Stmt.classDefinition name body arguments decorators loc).emit s).Decides
      ((Stmt.classDefinition name body arguments decorators loc).Clean s) := by
  have hextends := decides_extendsText arguments fun b hb =>
    h.part (.argument, b) (List.mem_map_of_mem hb) s.reading rfl
  have hmembers := decides_emitMembers fun b hb => h.inner (_, b) (List.mem_map_of_mem hb)
  rw [Stmt.emit]
  refine .of_statement (hextends.bind fun t _ => hmembers.then_ok fun b _ => ⟨_, rfl⟩) ?_
  rw [not_offends_class_iff]
  simp only [Stmt.written, Stmt.parts, Stmt.inner, List.forall_mem_map]
  constructor
  · rintro ⟨⟨hplain, hsingle, hclean⟩, hbody⟩
    exact ⟨⟨⟨hplain, hsingle, fun b hb => (hbody b hb).1⟩, hclean⟩, fun b hb => (hbody b hb).2⟩
  · rintro ⟨⟨⟨hplain, hsingle, hmember⟩, hclean⟩, hbody⟩
    exact ⟨⟨hplain, hsingle, hclean⟩, fun b hb => ⟨hmember b hb, hbody b hb⟩⟩

theorem decides_conditionalStatement {choices : List Choice}
    (h : (Stmt.conditional choices loc).PartsDecide s) :
    ((Stmt.conditional choices loc).emit s).Decides ((Stmt.conditional choices loc).Clean s) := by
  have hchoices := decides_emitChoices loc true
    (fun e he => h.part (.value, e) (List.mem_map_of_mem he) s.reading rfl)
    fun b hb => h.inner (s, b) (List.mem_map_of_mem hb)
  rw [Stmt.emit]
  refine .of_statement (hchoices.then_ok fun c _ => ⟨_, rfl⟩) ?_
  rw [not_offends_conditional_iff]
  simp [Stmt.written, Stmt.parts, Stmt.inner, and_assoc]

theorem decides_forLoop (h : (Stmt.forLoop left right body loc).PartsDecide s) :
    ((Stmt.forLoop left right body loc).emit s).Decides
      ((Stmt.forLoop left right body loc).Clean s) := by
  have hleft := h.part (.target, left) (by simp [Stmt.parts]) s.assigning rfl
  have hright := h.part (.value, right) (by simp [Stmt.parts]) s.reading rfl
  have hbody := decides_emitBody fun b hb => h.inner (s, b) (List.mem_map_of_mem hb)
  have hoffends : ¬ (Stmt.forLoop left right body loc).Offends s := by rintro ⟨⟩
  rw [Stmt.emit]
  refine .of_statement (hleft.bind fun l _ => hright.bind fun r _ =>
    hbody.then_ok fun b _ => ⟨_, rfl⟩) ?_
  simp [Stmt.written, Stmt.parts, Stmt.inner, hoffends, and_assoc]

/-- A thrown value has to be clean, and a call or the name of a class. -/
theorem decides_raising (h : (Stmt.raising value loc).PartsDecide s) :
    ((Stmt.raising value loc).emit s).Decides ((Stmt.raising value loc).Clean s) := by
  have hvalue := h.part (.value, value) (by simp [Stmt.parts]) s.reading rfl
  have hoffends : ¬ (Stmt.raising value loc).Offends s ↔
      value.kind ∈ [.call, .reference, .memberExpression] := by
    refine ⟨fun h => Decidable.byContradiction fun hkind => h (.raising hkind), ?_⟩
    intro hkind hoffends
    cases hoffends with
    | raising h => exact h hkind
  rw [Stmt.emit]
  refine .of_statement (decides_emitRaise hvalue) ?_
  rw [hoffends]
  simp [Stmt.written, Stmt.parts, Stmt.inner, and_comm]

end

/-- **Writing a statement decides whether something it holds is
refused.** -/
theorem Stmt.decides_emit (st : Stmt) : ∀ s : Scope, s.target = false → st.fits = true →
    st.Spelled Denotes s → (st.emit s).Decides (st.Clean s) := by
  induction st using Stmt.induction_inner with
  | step st ih =>
  intro s hs hfits hspelled
  obtain ⟨htypes, hparts, hbodies⟩ := Stmt.spelled_iff.1 hspelled
  have h : st.PartsDecide s := by
    constructor
    · exact fun q hq s' hs' => Expr.decides_emit (Stmt.parts_admitted hfits q hq) (hparts q hq) hs'
        (Stmt.parts_ne_index q hq)
    · exact fun q hq =>
        ih s q hq q.1 (Stmt.inner_target hs q hq) (Stmt.inner_fits hfits q hq) (hbodies q hq)
  cases st with
  | expression value =>
    have hvalue := h.part (.value, value) (by simp [Stmt.parts]) s hs
    have hoffends : ¬ (Stmt.expression value).Offends s := by rintro ⟨⟩
    rw [Stmt.emit]
    refine .of_statement (hvalue.then_ok fun t _ => ⟨_, rfl⟩) ?_
    simp [Stmt.written, Stmt.parts, Stmt.inner, hoffends]
  | assignment left right operator type loc =>
    have htype : ∀ t ∈ type, Denotes t := fun t ht => htypes t (Option.mem_toList.2 ht)
    rw [Stmt.emit]
    -- a class body writes fields, any other body assignments
    split
    · rename_i hclass
      exact decides_field hclass htype h
    · rename_i hclass
      exact decides_assigned hclass htype h
  | function name parameters body returnType decorators loc =>
    exact decides_function hfits (fun p hp => hparts (.parameter, p) (List.mem_map_of_mem hp))
      (fun t ht => htypes t (Option.mem_toList.2 ht)) h
  | classDefinition name body arguments decorators loc => exact decides_class h
  | conditional choices loc => exact decides_conditionalStatement h
  | forLoop left right body loc => exact decides_forLoop h
  | whileLoop test body loc =>
    have htest := h.part (.value, test) (by simp [Stmt.parts]) s.reading rfl
    have hbody := decides_emitBody fun b hb => h.inner (s, b) (List.mem_map_of_mem hb)
    have hoffends : ¬ (Stmt.whileLoop test body loc).Offends s := by rintro ⟨⟩
    rw [Stmt.emit]
    refine .of_statement (htest.bind fun t _ => hbody.then_ok fun b _ => ⟨_, rfl⟩) ?_
    simp [Stmt.written, Stmt.parts, Stmt.inner, hoffends]
  | returning value loc =>
    have hvalue : ∀ e ∈ value, (e.emit s.reading).Decides (e.Clean .value) := fun e he =>
      h.part (.value, e) (by simp [Stmt.parts, Option.mem_def.1 he]) s.reading rfl
    have hoffends : ¬ (Stmt.returning value loc).Offends s := by rintro ⟨⟩
    rw [Stmt.emit]
    refine .of_statement (decides_emitReturn hvalue) ?_
    simp [Stmt.written, Stmt.parts, Stmt.inner, hoffends]
  | raising value loc => exact decides_raising h
  | simple kind loc =>
    have hoffends : ¬ (Stmt.simple kind loc).Offends s := by rintro ⟨⟩
    refine .of_statement (.of_ok ⟨_, rfl⟩) ?_
    simp [Stmt.written, Stmt.parts, Stmt.inner, hoffends]
  | comment text loc =>
    have hoffends : ¬ (Stmt.comment text loc).Offends s := by rintro ⟨⟩
    refine .of_statement (.of_ok ⟨_, rfl⟩) ?_
    simp [Stmt.written, Stmt.parts, Stmt.inner, hoffends]

end Scribe
