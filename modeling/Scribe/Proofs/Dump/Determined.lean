import Scribe.Ast.Same
import Scribe.Proofs.Dump.Plain

/-!
# A dump determines the syntax

A dump leaves out fields that hold nothing, writes a hole as a symbol, and
does not show where a node stands. Nothing else is lost: two nodes have
the same dump exactly if they are the same up to places
(`dump_determines`), in either style and whatever their texts hold.

That a text determines its S-expression is the matter of
`Scribe.Proofs.Dump.Reading`. Here the S-expression is shown to determine
the node: its head tells the constructor, and the fields that are shown,
with their names, tell all the fields (`fields_eq_iff`), also those that
are left out.
-/

namespace Scribe

variable {write : Bool → SExpr}

/-! ## Records -/

namespace Value

/-- A shown field has its own name. -/
theorem labelled_eq_some {f : String × Value} {name : String} {e : SExpr}
    (h : labelled write f = some (.list [.symbol (":" ++ name), e])) :
    f.1 = name ∧ shown write f = some e := by
  obtain ⟨x, hx, heq⟩ := Option.map_eq_some_iff.1 h
  simp only [SExpr.list.injEq, List.cons.injEq, SExpr.symbol.injEq, and_true] at heq
  exact ⟨(String.append_right_inj ":").1 heq.1, heq.2 ▸ hx⟩

/-- A field that is left out has no label. -/
theorem labelled_eq_none {f : String × Value} (h : shown write f = none) :
    labelled write f = none := by
  rw [labelled, h, Option.map_none]

/-- A shown field is labelled with its name. -/
theorem labelled_of_shown {f : String × Value} {e : SExpr} (h : shown write f = some e) :
    labelled write f = some (.list [.symbol (":" ++ f.1), e]) := by
  rw [labelled, h, Option.map_some]

/-- **What is shown tells what is left out.** With the same names, each
once, two records show the same exactly if each field shows the same. -/
theorem fields_eq_iff {fs gs : List (String × Value)} (hnames : fs.map (·.1) = gs.map (·.1))
    (hnodup : (fs.map (·.1)).Nodup) :
    fs.filterMap (labelled write) = gs.filterMap (labelled write) ↔
      fs.map (shown write) = gs.map (shown write) := by
  induction fs generalizing gs with
  | nil =>
    obtain rfl := List.map_eq_nil_iff.1 hnames.symm
    exact iff_of_true rfl rfl
  | cons f fs ih =>
    cases gs with
    | nil => cases hnames
    | cons g gs =>
      obtain ⟨hfg, hrest⟩ : f.1 = g.1 ∧ fs.map (·.1) = gs.map (·.1) := List.cons.inj hnames
      obtain ⟨hnew, hnodup⟩ := List.nodup_cons.1 hnodup
      have hih := ih hrest hnodup
      -- a field that one record shows and the other leaves out cannot be shown further on
      have hlater : ∀ {hs : List (String × Value)} {e : SExpr} {rest : List SExpr},
          hs.map (·.1) = fs.map (·.1) →
          hs.filterMap (labelled write) ≠ .list [.symbol (":" ++ f.1), e] :: rest := by
        intro hs e rest hhs heq
        have hmem : SExpr.list [.symbol (":" ++ f.1), e] ∈ hs.filterMap (labelled write) :=
          heq ▸ List.mem_cons_self ..
        obtain ⟨h, hh, hshown⟩ := List.mem_filterMap.1 hmem
        refine hnew (hhs ▸ List.mem_map.2 ⟨h, hh, ?_⟩)
        exact (labelled_eq_some hshown).1
      rw [List.map_cons, List.map_cons, List.cons.injEq]
      cases hf : shown write f with
      | none =>
        cases hg : shown write g with
        | none =>
          rw [List.filterMap_cons_none (labelled_eq_none hf),
            List.filterMap_cons_none (labelled_eq_none hg), hih]
          simp
        | some y =>
          have hg' := labelled_of_shown hg
          rw [← hfg] at hg'
          rw [List.filterMap_cons_none (labelled_eq_none hf), List.filterMap_cons_some hg']
          exact iff_of_false (hlater rfl) fun h => Option.some_ne_none _ h.1.symm
      | some x =>
        have hf' := labelled_of_shown hf
        cases hg : shown write g with
        | none =>
          rw [List.filterMap_cons_some hf', List.filterMap_cons_none (labelled_eq_none hg)]
          exact iff_of_false (fun h => hlater hrest.symm h.symm) fun h =>
            Option.some_ne_none _ h.1
        | some y =>
          have hg' := labelled_of_shown hg
          rw [← hfg] at hg'
          rw [List.filterMap_cons_some hf', List.filterMap_cons_some hg', List.cons.injEq, hih]
          simp

/-- **Records.** -/
theorem spelled_record_iff {kind kind' : NodeKind} {fs gs : List (String × Value)}
    {loc loc' : Option Location} (hnames : fs.map (·.1) = gs.map (·.1))
    (hnodup : (fs.map (·.1)).Nodup) :
    (record kind fs loc).spelled write = (record kind' gs loc').spelled write ↔
      kind = kind' ∧ fs.map (shown write) = gs.map (shown write) := by
  rw [spelled_record, spelled_record, SExpr.list.injEq, List.cons.injEq, SExpr.symbol.injEq,
    fields_eq_iff hnames hnodup]
  exact and_congr_left fun _ => ⟨NodeKind.name_injective, congrArg _⟩

/-- The head of a record tells its kind. -/
theorem kind_eq_of_spelled {kind kind' : NodeKind} {fs gs : List (String × Value)}
    {loc loc' : Option Location}
    (h : (record kind fs loc).spelled write = (record kind' gs loc').spelled write) :
    kind = kind' := by
  rw [spelled_record, spelled_record, SExpr.list.injEq, List.cons.injEq, SExpr.symbol.injEq] at h
  exact NodeKind.name_injective h.1

/-! ## Fields -/

@[simp] theorem shown_text (name s : String) : shown write (name, .text s) = some (.text s) := rfl

@[simp] theorem shown_absent (name : String) : shown write (name, .absent) = none := rfl

@[simp] theorem shown_flag (name : String) (b : Bool) :
    shown write (name, .flag b) = some (write b) := rfl

@[simp] theorem shown_ofBinaryOp (name : String) (op : BinaryOp) :
    shown write (name, ofBinaryOp op) = some (.symbol op.spelling) := rfl

@[simp] theorem shown_ofUnaryOp (name : String) (op : UnaryOp) :
    shown write (name, ofUnaryOp op) = some (.symbol op.spelling) := rfl

/-- A text that may be missing is told, since only then it is left out. -/
@[simp] theorem shown_ofText?_inj {name : String} {t t' : Option String} :
    shown write (name, ofText? t) = shown write (name, ofText? t') ↔ t = t' := by
  cases t <;> cases t' <;> simp [ofText?, shown, isOmitted]

@[simp] theorem shown_ofSplat?_inj {name : String} {s s' : Option Splat} :
    shown write (name, ofSplat? s) = shown write (name, ofSplat? s') ↔ s = s' := by
  rcases s with _ | _ | _ <;> rcases s' with _ | _ | _ <;>
    simp [ofSplat?, shown, isOmitted, spelled, sexpr, SExpr.unflag, Splat.word]

/-- A list is left out only if it is the empty list of decorators. -/
@[simp] theorem shown_list {name : String} (hname : name ≠ "decorators") (items : List Value) :
    shown write (name, .list items) = some (.list (items.map (spelled write))) := by
  cases items with
  | nil => simp [shown, isOmitted, hname]
  | cons v vs => simp [shown, isOmitted]

/-- Decorators are told, since none are shown only if there are none. -/
@[simp] theorem shown_ofTexts_inj {ts ts' : List String} :
    shown write ("decorators", ofTexts ts) = shown write ("decorators", ofTexts ts') ↔
      ts = ts' := by
  have hinj : ∀ {us vs : List String}, us.map SExpr.text = vs.map SExpr.text ↔ us = vs :=
    List.map_inj_right fun _ _ h => SExpr.text.inj h
  cases ts <;> cases ts' <;> simp [ofTexts, shown, isOmitted, Function.comp_def, hinj]

end Value

@[simp] theorem BinaryOp.spelling_inj {a b : BinaryOp} : a.spelling = b.spelling ↔ a = b := by
  constructor
  · intro h
    have hfound := congrArg BinaryOp.ofSpelling? h
    rw [ofSpelling?_spelling, ofSpelling?_spelling] at hfound
    exact Option.some.inj hfound
  · exact congrArg _

@[simp] theorem UnaryOp.spelling_inj {a b : UnaryOp} : a.spelling = b.spelling ↔ a = b := by
  constructor
  · intro h
    have hfound := congrArg UnaryOp.ofSpelling? h
    rw [ofSpelling?_spelling, ofSpelling?_spelling] at hfound
    exact Option.some.inj hfound
  · exact congrArg _

/-! ## Expressions -/

/-- What a dump shows for an expression. -/
def Expr.spelled (write : Bool → SExpr) (e : Expr) : SExpr :=
  e.value.spelled write

/-- The constructor of an expression can be read off its kind. -/
def NodeKind.expressionForm : NodeKind → Nat
  | .reference => 0 | .defaultParameter => 1 | .typedParameter => 2 | .typedDefaultParameter => 3
  | .call => 4 | .keywordArgument => 5 | .memberExpression => 6 | .subscript => 7 | .slice => 8
  | .binaryOperator => 9 | .notOperator => 10 | .unaryOperator => 11
  | .conditionalExpression => 12 | .parenthesizedExpression => 13 | .lambda => 14 | .string => 15
  | .integer => 16 | .float => 16 | .boolean => 17 | .null => 18
  | .list => 19 | .tuple => 19 | .patternList => 19 | .dictionary => 20 | .pair => 21
  | _ => 22

/-- Every expression is shown as a record of its kind. -/
theorem Expr.exists_record (e : Expr) : ∃ fields, e.value = .record e.kind fields e.loc := by
  cases e <;> exact ⟨_, rfl⟩

theorem Expr.form_kind (e : Expr) : e.kind.expressionForm = e.ctorIdx := by
  cases e with
  | number kind _ _ => cases kind <;> rfl
  | sequence kind _ _ => cases kind <;> rfl
  | _ => rfl

theorem Expr.kind_eq_of_spelled {e e' : Expr} (h : e.spelled write = e'.spelled write) :
    e.kind = e'.kind := by
  obtain ⟨fields, he⟩ := e.exists_record
  obtain ⟨fields', he'⟩ := e'.exists_record
  rw [Expr.spelled, Expr.spelled, he, he'] at h
  exact Value.kind_eq_of_spelled h

/-- Different constructors are shown differently. -/
theorem Expr.spelled_ne {e e' : Expr} (h : e.ctorIdx ≠ e'.ctorIdx) :
    e.spelled write ≠ e'.spelled write := by
  intro heq
  rw [← Expr.form_kind, ← Expr.form_kind, Expr.kind_eq_of_spelled heq] at h
  exact h rfl

theorem Expr.ctorIdx_eq_of_same {e e' : Expr} (h : e.same e' = true) : e.ctorIdx = e'.ctorIdx := by
  cases e
  all_goals
    unfold Expr.same at h
    split at h
    · rfl
    · cases h

/-- Different constructors are different expressions and shown
differently. -/
theorem Expr.told_of_ne {e e' : Expr} (h : e.ctorIdx.beq e'.ctorIdx = false) :
    e.same e' = true ↔ e.spelled write = e'.spelled write := by
  have hne := Nat.ne_of_beq_eq_false h
  exact iff_of_false (fun hsame => hne (Expr.ctorIdx_eq_of_same hsame)) (Expr.spelled_ne hne)

@[simp] theorem Expr.shown_value (name : String) (e : Expr) :
    Value.shown write (name, e.value) = some (e.spelled write) := by
  obtain ⟨fields, he⟩ := e.exists_record
  rw [Expr.spelled, he]
  rfl

@[simp] theorem Expr.shown_value? (name : String) (o : Option Expr) :
    Value.shown write (name, Expr.value? o) = o.map (Expr.spelled write) := by
  cases o with
  | none => rfl
  | some e => exact Expr.shown_value name e

@[simp] theorem Expr.map_values (es : List Expr) :
    (Expr.values es).map (Value.spelled write) = es.map (Expr.spelled write) := by
  induction es with
  | nil => rfl
  | cons e es ih => rw [Expr.values, List.map_cons, ih, List.map_cons, Expr.spelled]

/-- What a dump shows for an expression that may be missing, with the
symbol for none. -/
def Expr.spelledOr (write : Bool → SExpr) (name : String) : Option Expr → SExpr
  | none => .symbol name
  | some e => e.spelled write

@[simp] theorem Expr.map_itemValues (items : List (Option Expr)) :
    (Expr.itemValues items).map (Value.spelled write) = items.map (Expr.spelledOr write "nil") := by
  induction items with
  | nil => rfl
  | cons i is ih =>
    rw [Expr.itemValues, List.map_cons, ih, List.map_cons]
    cases i <;> rfl

/-- No expression is shown as a symbol. -/
theorem Expr.spelled_ne_symbol (e : Expr) (name : String) : e.spelled write ≠ .symbol name := by
  obtain ⟨fields, he⟩ := e.exists_record
  rw [Expr.spelled, he, Value.spelled_record]
  nofun

/-- **The expression is told by what is shown.** -/
def Expr.Told (write : Bool → SExpr) (e : Expr) : Prop :=
  ∀ e', e.same e' = true ↔ e.spelled write = e'.spelled write

/-- Lists of expressions are told by what is shown of them. -/
theorem Expr.sameAll_iff {es es' : List Expr} (h : ∀ e ∈ es, e.Told write) :
    Expr.sameAll es es' = true ↔ es.map (Expr.spelled write) = es'.map (Expr.spelled write) := by
  induction es generalizing es' with
  | nil => cases es' <;> simp [Expr.sameAll]
  | cons e es ih =>
    cases es' with
    | nil => simp [Expr.sameAll]
    | cons e' es' =>
      have he := h e (List.mem_cons_self ..) e'
      have hes := @ih es' fun x hx => h x (List.mem_cons_of_mem _ hx)
      simp [Expr.sameAll, he, hes]

theorem Expr.sameOption_iff {o o' : Option Expr} (h : ∀ e ∈ o, e.Told write) :
    Expr.sameOption o o' = true ↔ o.map (Expr.spelled write) = o'.map (Expr.spelled write) := by
  cases o with
  | none => cases o' <;> simp [Expr.sameOption]
  | some e =>
    cases o' with
    | none => simp [Expr.sameOption]
    | some e' => simpa [Expr.sameOption] using h e rfl e'

/-- Where something may be missing, a symbol says so, and no expression
is shown as a symbol. -/
theorem Expr.spelledOr_iff {name : String} {o o' : Option Expr} :
    Expr.spelledOr write name o = Expr.spelledOr write name o' ↔
      o.map (Expr.spelled write) = o'.map (Expr.spelled write) := by
  cases o with
  | none =>
    cases o' with
    | none => simp
    | some e' => exact iff_of_false (Expr.spelled_ne_symbol e' name).symm nofun
  | some e =>
    cases o' with
    | none => exact iff_of_false (Expr.spelled_ne_symbol e name) nofun
    | some e' => simp [Expr.spelledOr]

/-- Items are told as well; what is missing is shown as a symbol. -/
theorem Expr.sameItems_iff {is is' : List (Option Expr)}
    (h : ∀ e, some e ∈ is → e.Told write) :
    Expr.sameItems is is' = true ↔
      is.map (Expr.spelledOr write "nil") = is'.map (Expr.spelledOr write "nil") := by
  induction is generalizing is' with
  | nil => cases is' <;> simp [Expr.sameItems]
  | cons i is ih =>
    cases is' with
    | nil => simp [Expr.sameItems]
    | cons i' is' =>
      have hi : Expr.sameOption i i' = true ↔ _ :=
        Expr.sameOption_iff fun e he => h e (he ▸ List.mem_cons_self ..)
      have his := @ih is' fun x hx => h x (List.mem_cons_of_mem _ hx)
      simp [Expr.sameItems, hi, his, Expr.spelledOr_iff]

@[simp] theorem NumberKind.node_inj {a b : NumberKind} : a.node = b.node ↔ a = b := by
  cases a <;> cases b <;> simp [NumberKind.node]

@[simp] theorem SequenceKind.node_inj {a b : SequenceKind} : a.node = b.node ↔ a = b := by
  cases a <;> cases b <;> simp [SequenceKind.node]

/-- Truth values that are written differently are told apart. -/
theorem write_inj (hw : write true ≠ write false) {a b : Bool} : write a = write b ↔ a = b := by
  cases a <;> cases b <;> simp [hw, hw.symm]

section

attribute [local simp] Expr.same Expr.spelled Expr.value Value.spelled_record_iff

/-! An expression is told by its parts if these are. -/

variable {callee object property value index left right operand test consequence alternative inner
  body key : Expr} {arguments parameters entries : List Expr} {items : List (Option Expr)}
  {start stop step : Option Expr} {loc : Option Location}

namespace Expr

/-- A default belongs to what is shown of a parameter. -/
theorem told_defaultParameter {name : String} (hvalue : value.Told write) :
    (defaultParameter name value loc).Told write := by
  intro e'
  cases e' with
  | defaultParameter name' value' loc' =>
    simp [hvalue value']
  | _ => exact told_of_ne rfl

/-- A parameter is told by all that it is declared with. -/
theorem told_typedDefaultParameter {name type : String} (hvalue : value.Told write) :
    (typedDefaultParameter name type value loc).Told write := by
  intro e'
  cases e' with
  | typedDefaultParameter name' type' value' loc' =>
    simp [hvalue value', and_assoc]
  | _ => exact told_of_ne rfl

/-- A call is told by the callee and every argument. -/
theorem told_call (hcallee : callee.Told write) (harguments : ∀ a ∈ arguments, a.Told write) :
    (call callee arguments loc).Told write := by
  intro e'
  cases e' with
  | call callee' arguments' loc' =>
    simp [hcallee callee', sameAll_iff harguments]
  | _ => exact told_of_ne rfl

theorem told_keywordArgument {name : String} (hvalue : value.Told write) :
    (keywordArgument name value loc).Told write := by
  intro e'
  cases e' with
  | keywordArgument name' value' loc' =>
    simp [hvalue value']
  | _ => exact told_of_ne rfl

/-- Object and property are shown under different names. -/
theorem told_member (hobject : object.Told write) (hproperty : property.Told write) :
    (member object property loc).Told write := by
  intro e'
  cases e' with
  | member object' property' loc' =>
    simp [hobject object', hproperty property']
  | _ => exact told_of_ne rfl

theorem told_subscript (hvalue : value.Told write) (hindex : index.Told write) :
    (subscript value index loc).Told write := by
  intro e'
  cases e' with
  | subscript value' index' loc' =>
    simp [hvalue value', hindex index']
  | _ => exact told_of_ne rfl

/-- A bound that is missing is shown too, as no field. -/
theorem told_slice (hstart : ∀ e ∈ start, e.Told write) (hstop : ∀ e ∈ stop, e.Told write)
    (hstep : ∀ e ∈ step, e.Told write) : (slice start stop step loc).Told write := by
  intro e'
  cases e' with
  | slice start' stop' step' loc' =>
    simp [sameOption_iff hstart, sameOption_iff hstop, sameOption_iff hstep, and_assoc]
  | _ => exact told_of_ne rfl

/-- An operation is told by its operator as well as its operands. -/
theorem told_binary {op : BinaryOp} (hleft : left.Told write) (hright : right.Told write) :
    (binary left op right loc).Told write := by
  intro e'
  cases e' with
  | binary left' op' right' loc' =>
    simp [hleft left', hright right', and_assoc]
  | _ => exact told_of_ne rfl

theorem told_not (hoperand : operand.Told write) : (Expr.not operand loc).Told write := by
  intro e'
  cases e' with
  | not operand' loc' =>
    simp [hoperand operand']
  | _ => exact told_of_ne rfl

theorem told_unary {op : UnaryOp} (hoperand : operand.Told write) :
    (unary op operand loc).Told write := by
  intro e'
  cases e' with
  | unary op' operand' loc' =>
    simp [hoperand operand']
  | _ => exact told_of_ne rfl

/-- A choice is told by its three parts, each under its own name. -/
theorem told_conditional (htest : test.Told write) (hconsequence : consequence.Told write)
    (halternative : alternative.Told write) :
    (conditional test consequence alternative loc).Told write := by
  intro e'
  cases e' with
  | conditional test' consequence' alternative' loc' =>
    simp [htest test', hconsequence consequence', halternative alternative', and_assoc]
  | _ => exact told_of_ne rfl

theorem told_parenthesized (hinner : inner.Told write) :
    (parenthesized inner loc).Told write := by
  intro e'
  cases e' with
  | parenthesized inner' loc' =>
    simp [hinner inner']
  | _ => exact told_of_ne rfl

/-- A function without a name is told by its parameters and its body. -/
theorem told_lambda (hparameters : ∀ p ∈ parameters, p.Told write) (hbody : body.Told write) :
    (lambda parameters body loc).Told write := by
  intro e'
  cases e' with
  | lambda parameters' body' loc' =>
    simp [sameAll_iff hparameters, hbody body']
  | _ => exact told_of_ne rfl

/-- A sequence is told by its items; a hole among them is shown as a symbol. -/
theorem told_sequence {kind : SequenceKind} (hitems : ∀ e, some e ∈ items → e.Told write) :
    (sequence kind items loc).Told write := by
  intro e'
  cases e' with
  | sequence kind' items' loc' =>
    simp [sameItems_iff hitems]
  | _ => exact told_of_ne rfl

/-- A dictionary is told by its entries in order. -/
theorem told_dictionary (hentries : ∀ e ∈ entries, e.Told write) :
    (dictionary entries loc).Told write := by
  intro e'
  cases e' with
  | dictionary entries' loc' =>
    simp [sameAll_iff hentries]
  | _ => exact told_of_ne rfl

theorem told_pair (hkey : key.Told write) (hvalue : value.Told write) :
    (pair key value loc).Told write := by
  intro e'
  cases e' with
  | pair key' value' loc' =>
    simp [hkey key', hvalue value']
  | _ => exact told_of_ne rfl

end Expr

/-- **Every expression is told by what is shown.** -/
theorem Expr.told (hw : write true ≠ write false) (e : Expr) : e.Told write := by
  induction e using Expr.induction with
  | reference name splat loc =>
    intro e'
    cases e' with
    | reference name' splat' loc' =>
      simp
    | _ => exact Expr.told_of_ne rfl
  | defaultParameter _ _ _ hvalue => exact Expr.told_defaultParameter hvalue
  | typedParameter name type splat loc =>
    intro e'
    cases e' with
    | typedParameter name' type' splat' loc' =>
      simp [and_assoc]
    | _ => exact Expr.told_of_ne rfl
  | typedDefaultParameter _ _ _ _ hvalue => exact Expr.told_typedDefaultParameter hvalue
  | call _ _ _ hcallee harguments => exact Expr.told_call hcallee harguments
  | keywordArgument _ _ _ hvalue => exact Expr.told_keywordArgument hvalue
  | member _ _ _ hobject hproperty => exact Expr.told_member hobject hproperty
  | subscript _ _ _ hvalue hindex => exact Expr.told_subscript hvalue hindex
  | slice _ _ _ _ hstart hstop hstep => exact Expr.told_slice hstart hstop hstep
  | binary _ _ _ _ hleft hright => exact Expr.told_binary hleft hright
  | not _ _ hoperand => exact Expr.told_not hoperand
  | unary _ _ _ hoperand => exact Expr.told_unary hoperand
  | conditional _ _ _ _ htest hconsequence halternative =>
    exact Expr.told_conditional htest hconsequence halternative
  | parenthesized _ _ hinner => exact Expr.told_parenthesized hinner
  | lambda _ _ _ hparameters hbody => exact Expr.told_lambda hparameters hbody
  | string text loc =>
    intro e'
    cases e' with
    | string text' loc' =>
      simp
    | _ => exact Expr.told_of_ne rfl
  | number kind text loc =>
    intro e'
    cases e' with
    | number kind' text' loc' =>
      simp
    | _ => exact Expr.told_of_ne rfl
  | boolean value loc =>
    intro e'
    cases e' with
    | boolean value' loc' =>
      simp [write_inj hw]
    | _ => exact Expr.told_of_ne rfl
  | null loc =>
    intro e'
    cases e' with
    | null loc' =>
      simp
    | _ => exact Expr.told_of_ne rfl
  | sequence _ _ _ hitems => exact Expr.told_sequence hitems
  | dictionary _ _ hentries => exact Expr.told_dictionary hentries
  | pair _ _ _ hkey hvalue => exact Expr.told_pair hkey hvalue

end

/-! ## Statements -/

/-- What a dump shows for a statement. -/
def Stmt.spelled (write : Bool → SExpr) (s : Stmt) : SExpr :=
  s.value.spelled write

/-- The constructor of a statement can be read off its kind. -/
def NodeKind.statementForm : NodeKind → Nat
  | .assignment => 1 | .functionDefinition => 2 | .classDefinition => 3 | .ifStatement => 4
  | .forStatement => 5 | .whileStatement => 6 | .returnStatement => 7 | .raiseStatement => 8
  | .passStatement => 9 | .breakStatement => 9 | .continueStatement => 9 | .comment => 10
  | .program => 11
  | _ => 0

/-- Every statement is shown as a record of its kind. -/
theorem Stmt.exists_record (s : Stmt) : ∃ fields, s.value = .record s.kind fields s.loc := by
  cases s with
  | expression e => exact e.exists_record
  | _ => exact ⟨_, rfl⟩

theorem Expr.statementForm_kind (e : Expr) : e.kind.statementForm = 0 := by
  cases e with
  | number kind _ _ => cases kind <;> rfl
  | sequence kind _ _ => cases kind <;> rfl
  | _ => rfl

theorem Stmt.form_kind (s : Stmt) : s.kind.statementForm = s.ctorIdx := by
  cases s with
  | expression e => exact e.statementForm_kind
  | simple kind _ => cases kind <;> rfl
  | _ => rfl

/-- Different constructors are shown differently. -/
theorem Stmt.spelled_ne {s s' : Stmt} (h : s.ctorIdx ≠ s'.ctorIdx) :
    s.spelled write ≠ s'.spelled write := by
  intro heq
  obtain ⟨fields, hs⟩ := s.exists_record
  obtain ⟨fields', hs'⟩ := s'.exists_record
  rw [Stmt.spelled, Stmt.spelled, hs, hs'] at heq
  rw [← Stmt.form_kind, ← Stmt.form_kind, Value.kind_eq_of_spelled heq] at h
  exact h rfl

theorem Stmt.ctorIdx_eq_of_same {s s' : Stmt} (h : s.same s' = true) : s.ctorIdx = s'.ctorIdx := by
  cases s
  all_goals
    unfold Stmt.same at h
    split at h
    · rfl
    · cases h

/-- Different constructors are different statements and shown
differently. -/
theorem Stmt.told_of_ne {s s' : Stmt} (h : s.ctorIdx.beq s'.ctorIdx = false) :
    s.same s' = true ↔ s.spelled write = s'.spelled write := by
  have hne := Nat.ne_of_beq_eq_false h
  exact iff_of_false (fun hsame => hne (Stmt.ctorIdx_eq_of_same hsame)) (Stmt.spelled_ne hne)

@[simp] theorem Stmt.map_values (ss : List Stmt) :
    (Stmt.values ss).map (Value.spelled write) = ss.map (Stmt.spelled write) := by
  induction ss with
  | nil => rfl
  | cons s ss ih => rw [Stmt.values, List.map_cons, ih, List.map_cons, Stmt.spelled]

/-- **The statement is told by what is shown.** -/
def Stmt.Told (write : Bool → SExpr) (s : Stmt) : Prop :=
  ∀ s', s.same s' = true ↔ s.spelled write = s'.spelled write

/-- Bodies are told by what is shown of their statements. -/
theorem Stmt.sameAll_iff {ss ss' : List Stmt} (h : ∀ s ∈ ss, s.Told write) :
    Stmt.sameAll ss ss' = true ↔ ss.map (Stmt.spelled write) = ss'.map (Stmt.spelled write) := by
  induction ss generalizing ss' with
  | nil => cases ss' <;> simp [Stmt.sameAll]
  | cons s ss ih =>
    cases ss' with
    | nil => simp [Stmt.sameAll]
    | cons s' ss' =>
      have hs := h s (List.mem_cons_self ..) s'
      have hss := @ih ss' fun x hx => h x (List.mem_cons_of_mem _ hx)
      simp [Stmt.sameAll, hs, hss]

/-- What a dump shows for a choice. -/
def Choice.spelled (write : Bool → SExpr) : Choice → SExpr
  | .mk test body => .list [.symbol "choice", Expr.spelledOr write "else" test,
      .list (body.map (Stmt.spelled write))]

theorem Choice.spelled_value (c : Choice) : c.value.spelled write = c.spelled write := by
  obtain ⟨test, body⟩ := c
  cases test with
  | none =>
    simp [Choice.value, Choice.spelled, Expr.value?, Expr.spelledOr, Value.spelled, Value.sexpr,
      SExpr.unflag, SExpr.unflagAll, Value.unflagAll_sexprs]
  | some e =>
    obtain ⟨fields, he⟩ := e.exists_record
    simp [Choice.value, Choice.spelled, Expr.value?, Expr.spelledOr, Expr.spelled, he,
      Value.spelled, Value.sexpr,
      SExpr.unflag, SExpr.unflagAll, Value.unflagAll_sexprs]

@[simp] theorem Stmt.map_choiceValues (cs : List Choice) :
    (Stmt.choiceValues cs).map (Value.spelled write) = cs.map (Choice.spelled write) := by
  induction cs with
  | nil => rfl
  | cons c cs ih =>
    obtain ⟨test, body⟩ := c
    rw [Stmt.choiceValues, List.map_cons, ih, List.map_cons, Choice.spelled_value]

/-- The choices of a conditional are told by their tests and bodies. -/
theorem Stmt.sameChoices_iff (hw : write true ≠ write false) {cs cs' : List Choice}
    (h : ∀ test body, Choice.mk test body ∈ cs → ∀ s ∈ body, s.Told write) :
    Stmt.sameChoices cs cs' = true ↔
      cs.map (Choice.spelled write) = cs'.map (Choice.spelled write) := by
  induction cs generalizing cs' with
  | nil => cases cs' <;> simp [Stmt.sameChoices]
  | cons c cs ih =>
    cases cs' with
    | nil => simp [Stmt.sameChoices]
    | cons c' cs' =>
      obtain ⟨test, body⟩ := c
      obtain ⟨test', body'⟩ := c'
      have hcs := @ih cs' fun t b hb => h t b (List.mem_cons_of_mem _ hb)
      have htest : Expr.sameOption test test' = true ↔ _ :=
        Expr.sameOption_iff fun e _ => Expr.told hw e
      have hbody : Stmt.sameAll body body' = true ↔ _ :=
        Stmt.sameAll_iff (h test body (List.mem_cons_self ..))
      simp [Stmt.sameChoices, Choice.same, Choice.spelled, hcs, hbody, htest, Expr.spelledOr_iff]

@[simp] theorem SimpleKind.node_inj {a b : SimpleKind} : a.node = b.node ↔ a = b := by
  cases a <;> cases b <;> simp [SimpleKind.node]

section

attribute [local simp] Stmt.same Stmt.spelled Stmt.value Value.spelled_record_iff

variable {body : List Stmt} {loc : Option Location}

namespace Stmt

/-- A function is told by its header, its decorators and its body. -/
theorem told_function (hw : write true ≠ write false) {name : String} {parameters : List Expr}
    {returnType : Option String} {decorators : List String} (hbody : ∀ s ∈ body, s.Told write) :
    (function name parameters body returnType decorators loc).Told write := by
  intro s'
  cases s' with
  | function name' parameters' body' returnType' decorators' loc' =>
    simp [Expr.sameAll_iff fun e _ => Expr.told hw e, Stmt.sameAll_iff hbody, and_assoc]
  | _ => exact told_of_ne rfl

/-- A class without brackets is not one with empty brackets. -/
theorem told_classDefinition (hw : write true ≠ write false) {name : String}
    {arguments : Option (List Expr)} {decorators : List String}
    (hbody : ∀ s ∈ body, s.Told write) :
    (classDefinition name body arguments decorators loc).Told write := by
  intro s'
  cases s' with
  | classDefinition name' body' arguments' decorators' loc' =>
    cases arguments <;> cases arguments' <;>
      simp [Stmt.sameAll_iff hbody, Expr.sameAll_iff fun e _ => Expr.told hw e, and_assoc,
        and_comm, and_left_comm]
  | _ => exact told_of_ne rfl

theorem told_forLoop (hw : write true ≠ write false) {left right : Expr}
    (hbody : ∀ s ∈ body, s.Told write) : (forLoop left right body loc).Told write := by
  intro s'
  cases s' with
  | forLoop left' right' body' loc' =>
    simp [Expr.told hw left left', Expr.told hw right right', Stmt.sameAll_iff hbody, and_assoc]
  | _ => exact told_of_ne rfl

end Stmt

/-- **Every statement is told by what is shown.** -/
theorem Stmt.told (hw : write true ≠ write false) (s : Stmt) : s.Told write := by
  induction s using Stmt.induction with
  | expression value =>
    intro s'
    cases s' with
    | expression value' =>
      rw [Stmt.same]
      exact Expr.told hw value value'
    | _ => exact Stmt.told_of_ne rfl
  | assignment left right operator type loc =>
    intro s'
    cases s' with
    | assignment left' right' operator' type' loc' =>
      simp [Expr.told hw left left', Expr.sameOption_iff fun e _ => Expr.told hw e, and_assoc]
    | _ => exact Stmt.told_of_ne rfl
  | function _ _ _ _ _ _ hbody => exact Stmt.told_function hw hbody
  | classDefinition _ _ _ _ _ hbody => exact Stmt.told_classDefinition hw hbody
  | conditional choices loc hchoices =>
    intro s'
    cases s' with
    | conditional choices' loc' =>
      simp [Stmt.sameChoices_iff hw hchoices]
    | _ => exact Stmt.told_of_ne rfl
  | forLoop _ _ _ _ hbody => exact Stmt.told_forLoop hw hbody
  | whileLoop test body loc hbody =>
    intro s'
    cases s' with
    | whileLoop test' body' loc' =>
      simp [Expr.told hw test test', Stmt.sameAll_iff hbody]
    | _ => exact Stmt.told_of_ne rfl
  | returning value loc =>
    intro s'
    cases s' with
    | returning value' loc' =>
      simp [Expr.sameOption_iff fun e _ => Expr.told hw e]
    | _ => exact Stmt.told_of_ne rfl
  | raising value loc =>
    intro s'
    cases s' with
    | raising value' loc' =>
      simp [Expr.told hw value value']
    | _ => exact Stmt.told_of_ne rfl
  | simple kind loc =>
    intro s'
    cases s' with
    | simple kind' loc' =>
      simp
    | _ => exact Stmt.told_of_ne rfl
  | comment text loc =>
    intro s'
    cases s' with
    | comment text' loc' =>
      simp
    | _ => exact Stmt.told_of_ne rfl

end

/-! ## Nodes -/

/-- What is shown tells nodes apart. -/
theorem Node.same_iff (hw : write true ≠ write false) (a b : Node) :
    a.same b = true ↔ a.value.spelled write = b.value.spelled write := by
  have hprogram : ∀ (p : Program) (s : Stmt),
      p.value.spelled write ≠ s.value.spelled write := by
    intro p s heq
    obtain ⟨fields, hs⟩ := s.exists_record
    rw [Program.value, hs] at heq
    have hform := s.form_kind
    rw [← Value.kind_eq_of_spelled heq] at hform
    cases s <;> cases hform
  cases a with
  | program p =>
    cases b with
    | program q =>
      simp [Node.same, Node.value, Program.value, Value.spelled_record_iff,
        Stmt.sameAll_iff fun s _ => Stmt.told hw s]
    | item t => exact iff_of_false Bool.false_ne_true (hprogram p t)
  | item s =>
    cases b with
    | program q => exact iff_of_false Bool.false_ne_true (hprogram q s).symm
    | item t => exact Stmt.told hw s t

/-- **A dump determines the syntax.** In either style two nodes have the
same dump exactly if they are the same up to places. -/
theorem dump_determines (pretty : Bool) (a b : Node) :
    a.dump ⟨pretty, false⟩ = b.dump ⟨pretty, false⟩ ↔ a.same b = true := by
  cases pretty with
  | true =>
    have hplain : ∀ x, (SExpr.prettyFlag x).isPlain = true := by
      intro x
      cases x <;> exact SExpr.isPlainSymbol_ofList rfl rfl
    have hw : SExpr.prettyFlag true ≠ SExpr.prettyFlag false := by simp [SExpr.prettyFlag]
    rw [Node.same_iff hw]
    exact SExpr.pretty_eq_iff (a.plain_value.spelled hplain) (b.plain_value.spelled hplain) 0
  | false =>
    have hplain : ∀ x, (SExpr.compactFlag x).isPlain = true := by
      intro x
      cases x with
      | true => exact SExpr.isPlainSymbol_ofList rfl rfl
      | false => rfl
    have hw : SExpr.compactFlag true ≠ SExpr.compactFlag false := by simp [SExpr.compactFlag]
    rw [Node.same_iff hw]
    exact SExpr.compact_eq_iff (a.plain_value.spelled hplain) (b.plain_value.spelled hplain)

end Scribe
