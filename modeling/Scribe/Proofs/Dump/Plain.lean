import Scribe.Ast.Dump
import Scribe.Proofs.Dump.Reading
import Scribe.Proofs.Syntax.Induction

/-!
# What a dump shows

A dump shows a value as an S-expression. `Value.spelled` is that
expression with its truth values spelled out, and `Value.spelled_record`
says what it looks like for a node: the name of the kind, and behind it
the fields that are not left out.

Kinds, fields and operators are shown as symbols, and these are plain
whatever the texts of the node are (`Node.plain_value`). So a dump can be
read again.
-/

namespace Scribe

variable {write : Bool → SExpr}

/-! ## Records -/

namespace Value

/-- What a dump shows for a value, with its truth values spelled out. -/
def spelled (write : Bool → SExpr) (v : Value) : SExpr :=
  (v.sexpr false).unflag write

/-- What a dump shows for a field; nothing if it leaves the field out. -/
def shown (write : Bool → SExpr) (f : String × Value) : Option SExpr :=
  if f.2.isOmitted f.1 then none else some (f.2.spelled write)

/-- A field in a dump, with its name. -/
def labelled (write : Bool → SExpr) (f : String × Value) : Option SExpr :=
  (shown write f).map fun e => .list [.symbol (":" ++ f.1), e]

/-- The values of a list are shown one by one. -/
theorem unflagAll_sexprs (vs : List Value) :
    SExpr.unflagAll write (sexprs false vs) = vs.map (spelled write) := by
  induction vs with
  | nil => rfl
  | cons v vs ih => rw [sexprs, SExpr.unflagAll, ih, List.map_cons, spelled]

/-- Fields are shown one by one, and some are left out. -/
theorem unflagAll_fieldSexprs (fields : List (String × Value)) :
    SExpr.unflagAll write (fieldSexprs false fields) = fields.filterMap (labelled write) := by
  induction fields with
  | nil => rfl
  | cons f fields ih =>
    obtain ⟨name, v⟩ := f
    rw [fieldSexprs]
    by_cases hv : v.isOmitted name = true
    · rw [if_pos hv, ih, List.filterMap_cons_none]
      simp [labelled, shown, hv]
    · rw [if_neg hv, SExpr.unflagAll, ih]
      simp [labelled, shown, hv, SExpr.unflag, SExpr.unflagAll, spelled]

@[simp] theorem spelled_text (s : String) : (text s).spelled write = .text s := rfl

@[simp] theorem spelled_list (items : List Value) :
    (list items).spelled write = .list (items.map (spelled write)) := by
  rw [spelled, sexpr, SExpr.unflag, unflagAll_sexprs]

/-- **A node is shown** as the name of its kind and the fields that are not
left out, in their order. Its location is no part of it. -/
theorem spelled_record (kind : NodeKind) (fields : List (String × Value))
    (loc : Option Location) :
    (record kind fields loc).spelled write =
      .list (.symbol kind.name :: fields.filterMap (labelled write)) := by
  simp [spelled, sexpr, SExpr.unflag, SExpr.unflagAll, unflagAll_fieldSexprs]

end Value

/-! ## Symbols -/

/-- The names of fields. -/
def fieldNames : List String :=
  ["alternative", "arguments", "body", "callee", "choices", "consequence", "decorators", "default",
    "entries", "expression", "index", "items", "key", "left", "name", "object", "operand",
    "operator", "parameters", "property", "return_type", "right", "splat", "start", "step", "stop",
    "test", "text", "type_name", "value"]

/-- All names of fields are plain. -/
theorem plain_fieldNames : ∀ n ∈ fieldNames, SExpr.isPlainSymbol n = true := by
  simp only [fieldNames, List.forall_mem_cons, List.not_mem_nil, false_implies, implies_true,
    and_true]
  and_intros
  all_goals exact SExpr.isPlainSymbol_ofList rfl rfl

/-- The names of kinds are plain. -/
theorem NodeKind.plain_name (k : NodeKind) : SExpr.isPlainSymbol k.name = true := by
  cases k <;> exact SExpr.isPlainSymbol_ofList rfl rfl

/-- The signs of operators need no quoting. -/
theorem BinaryOp.plain_spelling (op : BinaryOp) : SExpr.isPlainSymbol op.spelling = true := by
  cases op <;> exact SExpr.isPlainSymbol_ofList rfl rfl

theorem UnaryOp.plain_spelling (op : UnaryOp) : SExpr.isPlainSymbol op.spelling = true := by
  cases op <;> exact SExpr.isPlainSymbol_ofList rfl rfl

theorem Splat.plain_word (s : Splat) : SExpr.isPlainSymbol s.word = true := by
  cases s <;> exact SExpr.isPlainSymbol_ofList rfl rfl

/-- The label of a field is plain if its name is. -/
theorem SExpr.isPlainSymbol_label {name : String} (h : isPlainSymbol name = true) :
    isPlainSymbol (":" ++ name) = true := by
  rw [isPlainSymbol, Bool.and_eq_true] at h
  rw [isPlainSymbol, String.toList_append, List.all_append, h.2]
  rfl

/-- **The value shows plain symbols only.** -/
inductive Value.Plain : Value → Prop
  | absent : Plain .absent
  | text {s : String} : Plain (.text s)
  | flag {b : Bool} : Plain (.flag b)
  | member {family label spelling : String} : SExpr.isPlainSymbol spelling = true →
      Plain (.member family label spelling)
  | list {items : List Value} : (∀ v ∈ items, Plain v) → Plain (.list items)
  | choice {test : Value} {body : List Value} : Plain test → (∀ v ∈ body, Plain v) →
      Plain (.choice test body)
  | record {kind : NodeKind} {fields : List (String × Value)} {loc : Option Location} :
      (∀ f ∈ fields, f.1 ∈ fieldNames) → (∀ f ∈ fields, Plain f.2) →
      Plain (.record kind fields loc)

/-- A choice is shown behind its test, or behind `else`. -/
theorem Value.exists_spelled_choice (test : Value) (body : List Value) :
    ∃ t, (choice test body).spelled write =
        .list [.symbol "choice", t, .list (body.map (spelled write))] ∧
      (t = .symbol "else" ∨ t = test.spelled write) := by
  cases test with
  | absent =>
    refine ⟨_, ?_, .inl rfl⟩
    simp [spelled, sexpr, SExpr.unflag, SExpr.unflagAll, unflagAll_sexprs]
  | _ =>
    refine ⟨_, ?_, .inr rfl⟩
    simp [spelled, sexpr, SExpr.unflag, SExpr.unflagAll, unflagAll_sexprs]

/-- A value that shows plain symbols only is shown as an expression whose
symbols are plain, if truth values are. -/
theorem Value.Plain.spelled (hw : ∀ b, (write b).isPlain = true) {v : Value} (h : v.Plain) :
    (v.spelled write).isPlain = true := by
  induction h with
  | absent => exact SExpr.isPlainSymbol_ofList rfl rfl
  | text => rfl
  | flag => exact hw _
  | member hs => exact hs
  | list _ ih =>
    rw [spelled_list, SExpr.isPlain, SExpr.areAllPlain_iff]
    exact List.forall_mem_map.2 ih
  | @choice test body _ _ htest hbody =>
    obtain ⟨t, heq, ht⟩ := @exists_spelled_choice write test body
    have hchoice : SExpr.isPlainSymbol "choice" = true := SExpr.isPlainSymbol_ofList rfl rfl
    have ht' : t.isPlain = true := by
      rcases ht with rfl | rfl
      · exact SExpr.isPlainSymbol_ofList rfl rfl
      · exact htest
    rw [heq]
    simpa [SExpr.isPlain, SExpr.areAllPlain, SExpr.areAllPlain_iff, hchoice, ht'] using hbody
  | @record kind fields loc hnames _ ih =>
    rw [spelled_record, SExpr.isPlain, SExpr.areAllPlain_iff]
    intro e he
    -- the kind in front, and the fields with their labels
    rcases List.mem_cons.1 he with rfl | he
    · exact kind.plain_name
    · obtain ⟨f, hf, hlabelled⟩ := List.mem_filterMap.1 he
      obtain ⟨x, hx, rfl⟩ := Option.map_eq_some_iff.1 hlabelled
      have hlabel := SExpr.isPlainSymbol_label (plain_fieldNames _ (hnames f hf))
      have hplain : x.isPlain = true := by
        unfold shown at hx
        split at hx
        · cases hx
        · exact Option.some.inj hx ▸ ih f hf
      simp [SExpr.isPlain, SExpr.areAllPlain, hlabel, hplain]

/-! ## Nodes -/

namespace Value.Plain

@[simp] theorem ofText? (t : Option String) : (Value.ofText? t).Plain := by
  cases t with
  | none => exact .absent
  | some s => exact .text

@[simp] theorem ofTexts (ts : List String) : (Value.ofTexts ts).Plain :=
  .list (List.forall_mem_map.2 fun _ _ => .text)

@[simp] theorem ofSplat? (s : Option Splat) : (Value.ofSplat? s).Plain := by
  cases s with
  | none => exact .absent
  | some s => exact .member s.plain_word

@[simp] theorem ofBinaryOp (op : BinaryOp) : (Value.ofBinaryOp op).Plain :=
  .member op.plain_spelling

@[simp] theorem ofUnaryOp (op : UnaryOp) : (Value.ofUnaryOp op).Plain :=
  .member op.plain_spelling

/-- A list of expressions shows plain symbols if each of them does. -/
theorem values {es : List Expr} (h : ∀ e ∈ es, e.value.Plain) :
    (Value.list (Expr.values es)).Plain := by
  refine .list ?_
  induction es with
  | nil => nofun
  | cons e es ih =>
    rw [Expr.values]
    exact List.forall_mem_cons.2 ⟨h e (List.mem_cons_self ..),
      ih fun e' he' => h e' (List.mem_cons_of_mem _ he')⟩

theorem value? {o : Option Expr} (h : ∀ e ∈ o, e.value.Plain) : (Expr.value? o).Plain := by
  cases o with
  | none => exact .absent
  | some e => exact h e rfl

theorem itemValues {is : List (Option Expr)} (h : ∀ e, some e ∈ is → e.value.Plain) :
    (Value.list (Expr.itemValues is)).Plain := by
  refine .list ?_
  induction is with
  | nil => nofun
  | cons i is ih =>
    rw [Expr.itemValues]
    refine List.forall_mem_cons.2 ⟨value? fun e he => ?_,
      ih fun e' he' => h e' (List.mem_cons_of_mem _ he')⟩
    exact h e (he ▸ List.mem_cons_self ..)

end Value.Plain

/-- An expression shows plain symbols only: its names and its texts are shown
as texts. -/
theorem Expr.plain_value (e : Expr) : e.value.Plain := by
  induction e using Expr.induction with
  | call callee arguments loc hcallee harguments =>
    exact .record (by simp [fieldNames]) (by simp [hcallee, Value.Plain.values harguments])
  | slice start stop step loc hstart hstop hstep =>
    refine .record (by simp [fieldNames]) ?_
    simp [Value.Plain.value? hstart, Value.Plain.value? hstop, Value.Plain.value? hstep]
  | lambda parameters body loc hparameters hbody =>
    exact .record (by simp [fieldNames]) (by simp [Value.Plain.values hparameters, hbody])
  | sequence kind items loc hitems =>
    exact .record (by simp [fieldNames]) (by simp [Value.Plain.itemValues hitems])
  | dictionary entries loc hentries =>
    exact .record (by simp [fieldNames]) (by simp [Value.Plain.values hentries])
  | _ =>
    refine .record (by simp [fieldNames]) ?_
    simp_all [Value.Plain.text, Value.Plain.flag]

namespace Value.Plain

theorem bodyValues {ss : List Stmt} (h : ∀ s ∈ ss, s.value.Plain) :
    ∀ v ∈ Stmt.values ss, v.Plain := by
  induction ss with
  | nil => nofun
  | cons s ss ih =>
    rw [Stmt.values]
    exact List.forall_mem_cons.2 ⟨h s (List.mem_cons_self ..),
      ih fun s' hs' => h s' (List.mem_cons_of_mem _ hs')⟩

/-- The choices of a conditional show plain symbols if their bodies do; their
tests are expressions. -/
theorem choiceValues {cs : List Choice}
    (h : ∀ test body, Choice.mk test body ∈ cs → ∀ s ∈ body, s.value.Plain) :
    (Value.list (Stmt.choiceValues cs)).Plain := by
  refine .list ?_
  induction cs with
  | nil => nofun
  | cons c cs ih =>
    obtain ⟨test, body⟩ := c
    rw [Stmt.choiceValues]
    refine List.forall_mem_cons.2 ⟨?_, ih fun t b hb => h t b (List.mem_cons_of_mem _ hb)⟩
    exact .choice (value? fun e _ => e.plain_value)
      (bodyValues (h test body (List.mem_cons_self ..)))

end Value.Plain

/-- A statement shows plain symbols only, whatever its bodies hold. -/
theorem Stmt.plain_value (s : Stmt) : s.value.Plain := by
  have hexprs : ∀ es : List Expr, (Value.list (Expr.values es)).Plain :=
    fun es => Value.Plain.values fun e _ => e.plain_value
  have hoption : ∀ o : Option Expr, (Expr.value? o).Plain :=
    fun o => Value.Plain.value? fun e _ => e.plain_value
  induction s using Stmt.induction with
  | expression e => exact e.plain_value
  | function name parameters body returnType decorators loc hbody =>
    refine .record (by simp [fieldNames]) ?_
    simp [Value.Plain.text, hexprs, Value.Plain.list (Value.Plain.bodyValues hbody)]
  | classDefinition name body arguments decorators loc hbody =>
    refine .record (by simp [fieldNames]) ?_
    cases arguments <;>
      simp [Value.Plain.text, Value.Plain.absent, hexprs,
        Value.Plain.list (Value.Plain.bodyValues hbody)]
  | conditional choices loc hchoices =>
    refine .record (by simp [fieldNames]) ?_
    simp [Value.Plain.choiceValues hchoices]
  | forLoop left right body loc hbody =>
    refine .record (by simp [fieldNames]) ?_
    simp [Expr.plain_value, Value.Plain.list (Value.Plain.bodyValues hbody)]
  | whileLoop test body loc hbody =>
    refine .record (by simp [fieldNames]) ?_
    simp [Expr.plain_value, Value.Plain.list (Value.Plain.bodyValues hbody)]
  | _ =>
    refine .record (by simp [fieldNames]) ?_
    simp [Value.Plain.text, Expr.plain_value, hoption]

/-- **Every node shows plain symbols only.** -/
theorem Node.plain_value (n : Node) : n.value.Plain := by
  cases n with
  | item s => exact s.plain_value
  | program p =>
    refine .record (by simp [fieldNames]) ?_
    simp [Value.Plain.list (Value.Plain.bodyValues fun s _ => s.plain_value)]

end Scribe
