import Scribe.Proofs.Build.Calls.Expression

/-!
# Programs keep their calls

The rules for statements build as many calls as their parts hold, and so
does the fold over a tree (`Cst.part_counts`). The rules that read the
parts of a definition, clause or assignment one after another keep only the
last of each kind; that the others are not lost is what the slots are for.
-/

namespace Scribe

theorem Stmt.callsIn_filterMap (os : List (Option Stmt)) :
    callsIn (os.filterMap id) = (os.map fun o => callsIn o.toList).sum := by
  induction os with
  | nil => rfl
  | cons o os ih => cases o <;> simpa using ih

theorem Choice.callsIn_eq_sum (cs : List Choice) : callsIn cs = (cs.map calls).sum := by
  induction cs with
  | nil => rfl
  | cons c cs ih => rw [callsIn, ih, List.map_cons, List.sum_cons]

namespace Branch

variable {b : Branch} {c inner : Context} {st : Stmt} {parent : Kind} {n : Nat} {ps : List Part}
variable {ns : List Nat} {ss : List TreeSlot}

/-! ## Assignments -/

/-- Behind the target, everything but the type and the punctuation is the
value. -/
theorem slot_value {child : Kind}
    (hparent : parent = .assignment ∨ parent = .augmentedAssignment) (hn : 1 ≤ n)
    (htoken : child.isToken = false) (htype : child ≠ .type) :
    parent.slot n child = some (.place 1) := by
  rcases hparent with rfl | rfl <;> simp [Kind.slot, Kind.isAtomic, htoken, htype, hn]

/-- Behind the target the value takes one slot, and the type and the operator
hold no call. -/
theorem calls_assignmentTail (hparent : parent = .assignment ∨ parent = .augmentedAssignment)
    (hn : 1 ≤ n) (hps : Filling parent n ps ns ss) {t t' : AssignmentTail}
    (hfree : Awaits ss (.place 1) (Expr.optionCalls t.value = 0))
    (h : (assignmentTail inner t ps).result = .ok t') :
    Expr.optionCalls t'.value = Expr.optionCalls t.value + ns.sum := by
  induction hps generalizing t with
  | nil =>
    obtain rfl := Traced.pure_eq_ok.1 h
    simp
  | @cons n m p ps ns ss hp _ hfresh _ ih =>
    have hnext : 1 ≤ if parent.separates p.kind then n + 1 else n := by
      split <;> omega
    rw [List.sum_cons]
    unfold assignmentTail at h
    split at h
    · rename_i hcolon
      have hm := hp.idle (p.isAtomic_of_isToken hcolon)
      rw [ih hnext hfree.tail h, hm, Nat.zero_add]
    · split at h
      · rename_i htype
        have hm := hp.idle (by rw [htype]; rfl)
        have hcalls := ih (t := { t with type := some p.text }) hnext hfree.tail h
        rw [hcalls, hm, Nat.zero_add]
      · rename_i htype
        split at h
        · rename_i hoperator
          have hm := hp.idle (isAtomic_of_assignmentOperator hoperator)
          have hcalls := ih (t := { t with operator := p.kind.name }) hnext hfree.tail h
          rw [hcalls, hm, Nat.zero_add]
        · obtain ⟨e, he, h⟩ := Traced.bind_eq_ok.1 h
          obtain ⟨hcalls, htoken⟩ := hp.built_expression he
          -- the value takes its slot here, so the field was empty before
          have hslot := slot_value hparent hn htoken htype
          rw [ih hnext (.of_not_mem (hfresh _ hslot)) h, hfree.head hslot]
          simp only [Expr.optionCalls, hcalls]
          omega

/-- The target takes the first slot, and the value behind it the other. -/
theorem calls_assignment (hkind : b.kind = .assignment ∨ b.kind = .augmentedAssignment)
    (hb : Filling b.kind 0 b.parts ns ss) (h : (b.assignment c).result = .ok st) :
    st.calls = ns.sum := by
  unfold assignment at h
  split at h
  · cases h
  · rename_i p ps hparts
    simp only [Traced.bind_eq_ok, Traced.pure_eq_ok] at h
    obtain ⟨left, hleft, t, ht, rfl⟩ := h
    rw [hparts] at hb
    obtain _ | ⟨hp, _, _, hps⟩ := hb
    have hnext : (if b.kind.separates p.kind then 0 + 1 else 0) = 1 := by
      rcases hkind with hkind | hkind <;> (rw [hkind]; rfl)
    have htail := calls_assignmentTail hkind (Nat.le_of_eq hnext.symm) hps (fun _ => rfl) ht
    simp only [Expr.optionCalls, Nat.zero_add] at htail
    rw [Stmt.calls, hp.target _ _ hleft, htail, List.sum_cons]

theorem calls_expressionStatement (hkind : b.kind = .expressionStatement)
    (hb : Filling b.kind 0 b.parts ns ss) (h : (b.expressionStatement c).result = .ok st) :
    st.calls = ns.sum := by
  unfold expressionStatement at h
  split at h
  · rename_i p hparts
    rw [hparts] at hb
    obtain _ | ⟨hp, _, _, ⟨⟩⟩ := hb
    rw [List.sum_cons, List.sum_nil, Nat.add_zero]
    split at h
    · rename_i hassignment
      exact hp.assignment (.inl hassignment) _ _ h
    · rename_i hassignment
      exact hp.assignment (.inr hassignment) _ _ h
    · split at h
      · -- documentation is carried as text
        rename_i hdocumentation
        have hstring : p.kind = .string := by simp_all
        obtain rfl := Traced.pure_eq_ok.1 h
        rw [Stmt.calls, hp.idle (by rw [hstring]; rfl)]
      · obtain ⟨e, he, rfl⟩ := Traced.map_eq_ok.1 h
        exact hp.expression _ _ he
  · simp only [Traced.bind_eq_ok, Traced.pure_eq_ok] at h
    obtain ⟨is, his, rfl⟩ := h
    rw [Stmt.calls, Expr.calls]
    exact calls_items (by rw [hkind]; rfl) hb (fun p m c e hp => hp.built_element) his

/-! ## Control flow -/

/-- Statements that are dropped hold no call. -/
theorem calls_body (hb : List.Forall₂ Part.Counts b.parts ns) {sts : List Stmt}
    (h : (b.body c).result = .ok sts) : Stmt.callsIn sts = ns.sum := by
  simp only [body, Traced.bind_eq_ok, Traced.pure_eq_ok] at h
  obtain ⟨os, hos, rfl⟩ := h
  rw [Stmt.callsIn_filterMap]
  exact sum_buildEach hb (fun p _ n o hp => hp.statement _ o) hos

/-- The kinds of nodes that have one slot for a body. -/
def ownsBody : Kind → Bool
  | .functionDefinition | .classDefinition | .ifStatement | .elifClause | .elseClause
  | .forStatement | .whileStatement => true
  | _ => false

/-- The body has a slot of its own. -/
theorem slot_block {child : Kind} (h : ownsBody parent = true) (hchild : child = .block) :
    parent.slot n child = some (.part .block) := by
  subst hchild
  cases parent <;> first | rfl | cases h

/-- A clause inside a clause takes no slot, since nothing reads it. -/
theorem slot_clause {child : Kind} (h : isClause parent = true) (hchild : isClause child = true) :
    parent.slot n child = none := by
  cases parent <;> cases h <;> simp only [Kind.slot, hchild, if_true, ite_self]

/-- **One test and one body.** Clauses are passed over: those of a
conditional are read later, and inside a clause there are none. -/
theorem calls_choiceParts (hparent : parent = .ifStatement ∨ isClause parent = true)
    (hps : Filling parent n ps ns ss) {test : Option Expr} {body : List Stmt} {ch : Choice}
    (hfree : Awaits ss (.part .block) (Stmt.callsIn body = 0))
    (h : (choiceParts c test body ps).result = .ok ch) :
    ∃ ms, List.Forall₂ Part.Counts (ps.filter (isClause ·.kind)) ms ∧
      ch.calls + ms.sum = Expr.optionCalls test + Stmt.callsIn body + ns.sum ∧
      (isClause parent = true → ms.sum = 0) := by
  have howns : ownsBody parent = true := by
    rcases hparent with rfl | hparent
    · rfl
    · cases parent <;> first | rfl | cases hparent
  induction hps generalizing test body with
  | nil =>
    obtain rfl := Traced.pure_eq_ok.1 h
    exact ⟨[], .nil, by simp, fun _ => rfl⟩
  | @cons n m p ps ns ss hp hidle hfresh _ ih =>
    rw [List.sum_cons]
    unfold choiceParts at h
    split at h
    · rename_i hskip
      obtain ⟨ms, hms, hsum, hzero⟩ := ih hfree.tail h
      -- a clause is among those that are left for later, a token is not
      cases hclause : isClause p.kind with
      | true =>
        rw [List.filter_cons_of_pos (by simpa using hclause)]
        refine ⟨m :: ms, .cons hp hms, by rw [List.sum_cons]; omega, fun hinner => ?_⟩
        have hm : m = 0 := hidle (slot_clause hinner hclause)
        rw [List.sum_cons, hm, hzero hinner]
      | false =>
        have htoken : p.isTokenOf ["if", "elif", "else", ":"] = true := by
          simpa [hclause] using hskip
        have hm := hp.idle (p.isAtomic_of_isTokenOf htoken)
        rw [List.filter_cons_of_neg (by simp [hclause])]
        exact ⟨ms, hms, by omega, hzero⟩
    · rename_i hskip
      have hclause : isClause p.kind = false := by
        cases hclause : isClause p.kind <;> simp_all
      rw [List.filter_cons_of_neg (by simp [hclause])]
      split at h
      · rename_i hkind
        obtain ⟨body', hbody, h⟩ := Traced.bind_eq_ok.1 h
        have hslot : parent.slot n p.kind = some (.part .block) := slot_block howns hkind
        have hcount := hp.body (by rw [hkind]; rfl) _ _ hbody
        have hempty := hfree.head hslot
        obtain ⟨ms, hms, hsum, hzero⟩ := ih (.of_not_mem (hfresh _ hslot)) h
        exact ⟨ms, hms, by omega, hzero⟩
      · split at h
        · rename_i hnone
          obtain ⟨e, he, h⟩ := Traced.bind_eq_ok.1 h
          obtain rfl := Option.isNone_iff_eq_none.1 hnone
          obtain ⟨ms, hms, hsum, hzero⟩ := ih hfree.tail h
          rw [Expr.optionCalls, hp.expression _ _ he] at hsum
          exact ⟨ms, hms, by rw [Expr.optionCalls]; omega, hzero⟩
        · simp at h

theorem calls_choice (hkind : isClause b.kind = true) (hb : Filling b.kind 0 b.parts ns ss)
    {ch : Choice} (h : (b.choice c).result = .ok ch) : ch.calls = ns.sum := by
  obtain ⟨ms, -, hsum, hzero⟩ := calls_choiceParts (.inr hkind) hb (fun _ => rfl) h
  simpa [hzero hkind] using hsum

theorem calls_conditionalStatement (hkind : b.kind = .ifStatement)
    (hb : Filling b.kind 0 b.parts ns ss) (h : (b.conditionalStatement c).result = .ok st) :
    st.calls = ns.sum := by
  simp only [conditionalStatement, Traced.bind_eq_ok, Traced.pure_eq_ok] at h
  obtain ⟨first, hfirst, rest, hrest, rfl⟩ := h
  obtain ⟨ms, hms, hsum, -⟩ := calls_choiceParts (.inl hkind) hb (fun _ => rfl) hfirst
  have hclauses : (rest.map Choice.calls).sum = ms.sum :=
    sum_buildEach hms (fun p hp _ ch hcount => hcount.choice (List.mem_filter.1 hp).2 _ ch) hrest
  rw [Stmt.calls, Choice.callsIn, Choice.callsIn_eq_sum, hclauses, hsum]
  simp

/-- The calls in the parts of a loop. -/
def ForParts.calls (f : ForParts) : Nat :=
  Expr.optionCalls f.left + Expr.optionCalls f.right + Stmt.callsIn f.body

/-- **Target, container and body** are read once each: a second target or
container is refused, and a second body would take the slot of the first. -/
theorem calls_forParts (hps : Filling .forStatement n ps ns ss) {f g : ForParts}
    (hfree : Awaits ss (.part .block) (Stmt.callsIn f.body = 0))
    (h : (forParts inner f ps).result = .ok g) : g.calls = f.calls + ns.sum := by
  induction hps generalizing f with
  | nil =>
    obtain rfl := Traced.pure_eq_ok.1 h
    simp
  | @cons n m p ps ns ss hp _ hfresh _ ih =>
    rw [List.sum_cons]
    unfold forParts at h
    split at h
    · rename_i htoken
      -- punctuation holds no call
      rw [ih hfree.tail h, hp.idle (p.isAtomic_of_isTokenOf htoken), Nat.zero_add]
    · split at h
      · rename_i hin
        have hm := hp.idle (p.isAtomic_of_isToken (Bool.and_eq_true_iff.1 hin).1)
        have hcalls := ih (f := { f with afterIn := true }) hfree.tail h
        rw [hcalls, hm, Nat.zero_add]
        rfl
      · split at h
        · rename_i hkind
          obtain ⟨body, hbody, h⟩ := Traced.bind_eq_ok.1 h
          -- the body takes its slot here, so the field was empty before
          have hslot : Kind.slot .forStatement n p.kind = some (.part .block) :=
            slot_block rfl hkind
          have hcount := hp.body (by rw [hkind]; rfl) _ _ hbody
          have hempty := hfree.head hslot
          rw [ih (.of_not_mem (hfresh _ hslot)) h]
          simp only [ForParts.calls, hcount, hempty]
          omega
        · split at h
          · rename_i hleft
            obtain ⟨e, he, h⟩ := Traced.bind_eq_ok.1 h
            have hnone := Option.isNone_iff_eq_none.1 (Bool.and_eq_true_iff.1 hleft).2
            rw [ih (f := { f with left := some e }) hfree.tail h]
            simp only [ForParts.calls, Expr.optionCalls, hnone, hp.target _ _ he]
            omega
          · split at h
            · rename_i hright
              obtain ⟨e, he, h⟩ := Traced.bind_eq_ok.1 h
              have hnone := Option.isNone_iff_eq_none.1 (Bool.and_eq_true_iff.1 hright).2
              rw [ih (f := { f with right := some e }) hfree.tail h]
              simp only [ForParts.calls, Expr.optionCalls, hnone, hp.expression _ _ he]
              omega
            -- a second target or container is refused
            · simp at h

theorem calls_forStatement (hb : Filling .forStatement 0 b.parts ns ss)
    (h : (b.forStatement c).result = .ok st) : st.calls = ns.sum := by
  simp only [forStatement, Traced.bind_eq_ok] at h
  obtain ⟨f, hf, h⟩ := h
  have hcalls := calls_forParts hb (fun _ => rfl) hf
  split at h
  · rename_i left right hleft hright
    obtain rfl := Traced.pure_eq_ok.1 h
    simpa [ForParts.calls, hleft, hright] using hcalls
  · simp at h

/-- A second test is refused, and a second body would take the slot of the
first. -/
theorem calls_whileParts (hps : Filling .whileStatement n ps ns ss) {test : Option Expr}
    {body : List Stmt} {q : Option Expr × List Stmt}
    (hfree : Awaits ss (.part .block) (Stmt.callsIn body = 0))
    (h : (whileParts inner test body ps).result = .ok q) :
    Expr.optionCalls q.1 + Stmt.callsIn q.2 =
      Expr.optionCalls test + Stmt.callsIn body + ns.sum := by
  induction hps generalizing test body with
  | nil =>
    obtain rfl := Traced.pure_eq_ok.1 h
    simp
  | @cons n m p ps ns ss hp _ hfresh _ ih =>
    rw [List.sum_cons]
    unfold whileParts at h
    split at h
    · rename_i htoken
      rw [ih hfree.tail h, hp.idle (p.isAtomic_of_isTokenOf htoken), Nat.zero_add]
    · split at h
      · rename_i hkind
        obtain ⟨body', hbody, h⟩ := Traced.bind_eq_ok.1 h
        have hslot : Kind.slot .whileStatement n p.kind = some (.part .block) :=
          slot_block rfl hkind
        have hcount := hp.body (by rw [hkind]; rfl) _ _ hbody
        have hempty := hfree.head hslot
        rw [ih (.of_not_mem (hfresh _ hslot)) h]
        omega
      · split at h
        · rename_i hnone
          obtain ⟨e, he, h⟩ := Traced.bind_eq_ok.1 h
          obtain rfl := Option.isNone_iff_eq_none.1 hnone
          rw [ih hfree.tail h]
          simp only [Expr.optionCalls, hp.expression _ _ he]
          omega
        · simp at h

theorem calls_whileStatement (hb : Filling .whileStatement 0 b.parts ns ss)
    (h : (b.whileStatement c).result = .ok st) : st.calls = ns.sum := by
  simp only [whileStatement, Traced.bind_eq_ok] at h
  obtain ⟨⟨test, body⟩, hparts, h⟩ := h
  have hcalls := calls_whileParts hb (fun _ => rfl) hparts
  cases test with
  | none => simp at h
  | some t =>
    obtain rfl := Traced.pure_eq_ok.1 h
    simpa using hcalls

theorem calls_returnStatement (hb : List.Forall₂ Part.Counts b.parts ns)
    (h : (b.returnStatement c).result = .ok st) : st.calls = ns.sum := by
  unfold returnStatement at h
  split at h
  · rename_i hparts
    obtain ⟨ms, ⟨⟩, hsum⟩ := counts_without hb hparts
    obtain rfl := Traced.pure_eq_ok.1 h
    exact hsum
  · rename_i p hparts
    obtain ⟨ms, hms, hsum⟩ := counts_without hb hparts
    obtain _ | ⟨hp, ⟨⟩⟩ := hms
    simp only [Traced.bind_eq_ok, Traced.pure_eq_ok] at h
    obtain ⟨e, he, rfl⟩ := h
    simp [← hsum, hp.expression _ _ he]
  · simp at h

theorem calls_raiseStatement (hb : List.Forall₂ Part.Counts b.parts ns)
    (h : (b.raiseStatement c).result = .ok st) : st.calls = ns.sum := by
  unfold raiseStatement at h
  split at h
  · simp at h
  · rename_i p hparts
    obtain ⟨ms, hms, hsum⟩ := counts_without hb hparts
    obtain _ | ⟨hp, ⟨⟩⟩ := hms
    simp only [Traced.bind_eq_ok, Traced.pure_eq_ok] at h
    obtain ⟨e, he, rfl⟩ := h
    simp [← hsum, hp.expression _ _ he]
  · simp at h

/-! ## Definitions -/

/-- The calls in the parts of a function. -/
def FunctionParts.calls (f : FunctionParts) : Nat :=
  Expr.callsIn f.parameters + Stmt.callsIn f.body

/-- Parameters and body have a slot each; the name and the type hold no call.
-/
theorem calls_functionParts (hps : Filling .functionDefinition n ps ns ss) {f g : FunctionParts}
    (hparameters : Awaits ss (.part .parameters) (Expr.callsIn f.parameters = 0))
    (hbody : Awaits ss (.part .block) (Stmt.callsIn f.body = 0))
    (h : (functionParts inner f ps).result = .ok g) : g.calls = f.calls + ns.sum := by
  induction hps generalizing f with
  | nil =>
    obtain rfl := Traced.pure_eq_ok.1 h
    simp
  | @cons n m p ps ns ss hp _ hfresh _ ih =>
    rw [List.sum_cons]
    unfold functionParts at h
    split at h
    · rename_i htoken
      rw [ih hparameters.tail hbody.tail h, hp.idle (p.isAtomic_of_isTokenOf htoken), Nat.zero_add]
    · split at h <;> rename_i hkind
      · rw [ih (f := { f with name := p.text }) hparameters.tail hbody.tail h,
          hp.idle (by rw [hkind]; rfl), Nat.zero_add]
        rfl
      · obtain ⟨es, hes, h⟩ := Traced.bind_eq_ok.1 h
        have hslot : Kind.slot .functionDefinition n p.kind = some (.part .parameters) := by
          rw [hkind]
          rfl
        have hempty := hparameters.head hslot
        have hcount := hp.parameters (.inl hkind) _ _ hes
        -- the slot is taken now, so nothing read later can replace the parameters
        rw [ih (f := { f with parameters := es }) (.of_not_mem (hfresh _ hslot)) hbody.tail h]
        simp only [FunctionParts.calls, hcount, hempty]
        omega
      · rw [ih (f := { f with returnType := some p.text }) hparameters.tail hbody.tail h,
          hp.idle (by rw [hkind]; rfl), Nat.zero_add]
        rfl
      · obtain ⟨body, hsts, h⟩ := Traced.bind_eq_ok.1 h
        have hslot : Kind.slot .functionDefinition n p.kind = some (.part .block) :=
          slot_block rfl hkind
        have hempty := hbody.head hslot
        have hcount := hp.body (by rw [hkind]; rfl) _ _ hsts
        rw [ih (f := { f with body := body }) hparameters.tail (.of_not_mem (hfresh _ hslot)) h]
        simp only [FunctionParts.calls, hcount, hempty]
        omega
      · simp at h

theorem calls_function {ds : List String} (hb : Filling .functionDefinition 0 b.parts ns ss)
    (h : (b.function ds c).result = .ok st) : st.calls = ns.sum := by
  simp only [function, Traced.bind_eq_ok, Traced.pure_eq_ok] at h
  obtain ⟨f, hf, rfl⟩ := h
  simpa [FunctionParts.calls] using calls_functionParts hb (fun _ => rfl) (fun _ => rfl) hf

/-- The calls in the parts of a class. -/
def ClassParts.calls (f : ClassParts) : Nat :=
  Expr.callsIn (f.arguments.getD []) + Stmt.callsIn f.body

/-- The bases and the body have a slot each. -/
theorem calls_classParts (hps : Filling .classDefinition n ps ns ss) {f g : ClassParts}
    (harguments : Awaits ss (.part .argumentList) (Expr.callsIn (f.arguments.getD []) = 0))
    (hbody : Awaits ss (.part .block) (Stmt.callsIn f.body = 0))
    (h : (classParts inner f ps).result = .ok g) : g.calls = f.calls + ns.sum := by
  induction hps generalizing f with
  | nil =>
    obtain rfl := Traced.pure_eq_ok.1 h
    simp
  | @cons n m p ps ns ss hp _ hfresh _ ih =>
    rw [List.sum_cons]
    unfold classParts at h
    split at h
    · rename_i htoken
      rw [ih harguments.tail hbody.tail h, hp.idle (p.isAtomic_of_isTokenOf htoken), Nat.zero_add]
    · split at h <;> rename_i hkind
      · rw [ih (f := { f with name := p.text }) harguments.tail hbody.tail h,
          hp.idle (by rw [hkind]; rfl), Nat.zero_add]
        rfl
      · obtain ⟨es, hes, h⟩ := Traced.bind_eq_ok.1 h
        have hslot : Kind.slot .classDefinition n p.kind = some (.part .argumentList) := by
          rw [hkind]
          rfl
        -- the bases take their slot, so none were read before
        have hempty := harguments.head hslot
        have hcount := hp.arguments hkind _ _ hes
        rw [ih (f := { f with arguments := some es }) (.of_not_mem (hfresh _ hslot)) hbody.tail h]
        simp only [ClassParts.calls, Option.getD_some, hcount, hempty]
        omega
      · obtain ⟨body, hsts, h⟩ := Traced.bind_eq_ok.1 h
        have hslot : Kind.slot .classDefinition n p.kind = some (.part .block) :=
          slot_block rfl hkind
        have hempty := hbody.head hslot
        have hcount := hp.body (by rw [hkind]; rfl) _ _ hsts
        rw [ih (f := { f with body := body }) harguments.tail (.of_not_mem (hfresh _ hslot)) h]
        simp only [ClassParts.calls, hcount, hempty]
        omega
      · simp at h

theorem calls_classDefinition {ds : List String} (hb : Filling .classDefinition 0 b.parts ns ss)
    (h : (b.classDefinition ds c).result = .ok st) : st.calls = ns.sum := by
  simp only [classDefinition, Traced.bind_eq_ok, Traced.pure_eq_ok] at h
  obtain ⟨f, hf, rfl⟩ := h
  simpa [ClassParts.calls] using calls_classParts hb (fun _ => rfl) (fun _ => rfl) hf

theorem calls_definition {ds : List String}
    (hkind : b.kind = .functionDefinition ∨ b.kind = .classDefinition)
    (hb : Filling b.kind 0 b.parts ns ss) (h : (b.definition ds c).result = .ok st) :
    st.calls = ns.sum := by
  unfold definition at h
  rcases hkind with hkind | hkind <;> rw [hkind] at h hb
  · exact calls_function hb h
  · exact calls_classDefinition hb h

/-- Beside the definition only decorators stand in a decorated one. -/
theorem sum_decorators (hps : Filling .decoratedDefinition n ps ns ss) (h : .place 0 ∉ ss) :
    ns.sum = 0 := by
  induction hps with
  | nil => rfl
  | @cons n m p ps ns ss hp hidle _ _ ih =>
    have hslot : Kind.slot .decoratedDefinition n p.kind = none := by
      cases hslot : Kind.slot .decoratedDefinition n p.kind with
      | none => rfl
      | some s =>
        have hs : s = .place 0 := by
          simp only [Kind.slot] at hslot
          split at hslot
          · cases hslot
          · split at hslot
            · cases hslot
            · exact (Option.some.inj hslot).symm
        exact absurd (by simp [hslot, hs]) h
    rw [List.sum_cons, hidle hslot, ih fun hmem => h (List.mem_append_right _ hmem)]

/-- Decorators are carried as text, so the definition alone builds calls. -/
theorem calls_decoratedParts {ds : List String} (hps : Filling .decoratedDefinition n ps ns ss)
    (h : (decoratedParts b c ds ps).result = .ok st) : st.calls = ns.sum := by
  induction hps generalizing ds with
  | nil => simp [decoratedParts] at h
  | @cons n m p ps ns ss hp _ hfresh hps ih =>
    -- what follows the definition is not read, and holds nothing
    have hrest : p.kind = .functionDefinition ∨ p.kind = .classDefinition → ns.sum = 0 := by
      intro hkind
      refine sum_decorators hps (hfresh (.place 0) ?_)
      rcases hkind with hkind | hkind <;> (rw [hkind]; rfl)
    rw [List.sum_cons]
    unfold decoratedParts at h
    split at h <;> rename_i hkind
    · rw [hp.idle (by rw [hkind]; rfl), Nat.zero_add, ih h]
    · rw [hrest (.inl hkind), Nat.add_zero]
      exact hp.definition (.inl hkind) _ _ _ h
    · rw [hrest (.inr hkind), Nat.add_zero]
      exact hp.definition (.inr hkind) _ _ _ h
    · simp at h

/-! ## Statements and all roles -/

/-- A statement builds the calls of its parts. A chain counts its middle
operands twice. -/
theorem calls_statement (hb : b.Filled ns ss) (himport : b.kind.isImport = false)
    {o : Option Stmt} (h : (b.statement c).result = .ok o) :
    Stmt.callsIn o.toList = b.kind.weigh ns := by
  -- most rules make one statement, which has the calls of the parts
  have hsome : ∀ {x : Traced Stmt}, isPlain b.kind = true → (some <$> x).result = .ok o →
      (∀ st, x.result = .ok st → st.calls = ns.sum) →
      Stmt.callsIn o.toList = b.kind.weigh ns := by
    intro x hplain hx hcalls
    obtain ⟨st, hst, rfl⟩ := Traced.map_eq_ok.1 hx
    rw [weigh_eq_sum hplain, ← hcalls st hst]
    rfl
  -- the simple statements have no parts
  have hsimple : ∀ {kind loc}, b.kind.isAtomic = true → some (Stmt.simple kind loc) = o →
      Stmt.callsIn o.toList = b.kind.weigh ns := by
    rintro kind loc hatomic rfl
    rw [hb.weigh_atomic hatomic]
    rfl
  unfold statement at h
  split at h <;> rename_i hkind
  · exact hsome (by rw [hkind]; rfl) h fun st => calls_expressionStatement hkind hb.parts
  · exact hsome (by rw [hkind]; rfl) h fun st => calls_function (hkind ▸ hb.parts)
  · exact hsome (by rw [hkind]; rfl) h fun st => calls_classDefinition (hkind ▸ hb.parts)
  · exact hsome (by rw [hkind]; rfl) h fun st => calls_decoratedParts (hkind ▸ hb.parts)
  · exact hsome (by rw [hkind]; rfl) h fun st => calls_conditionalStatement hkind hb.parts
  · exact hsome (by rw [hkind]; rfl) h fun st => calls_forStatement (hkind ▸ hb.parts)
  · exact hsome (by rw [hkind]; rfl) h fun st => calls_whileStatement (hkind ▸ hb.parts)
  · exact hsome (by rw [hkind]; rfl) h fun st => calls_returnStatement hb.counts
  · exact hsome (by rw [hkind]; rfl) h fun st => calls_raiseStatement hb.counts
  · exact hsimple (by rw [hkind]; rfl) (Traced.pure_eq_ok.1 h)
  · exact hsimple (by rw [hkind]; rfl) (Traced.pure_eq_ok.1 h)
  · exact hsimple (by rw [hkind]; rfl) (Traced.pure_eq_ok.1 h)
  -- imports are left out
  · rw [hkind] at himport
    cases himport
  · rw [hkind] at himport
    cases himport
  · rw [hkind] at himport
    cases himport
  · simp at h

theorem isPlain_of_holdsBody {k : Kind} (h : k.holdsBody = true) : isPlain k = true := by
  cases k <;> first | rfl | cases h

theorem isPlain_of_isClause {k : Kind} (h : isClause k = true) : isPlain k = true := by
  cases k <;> first | rfl | cases h

theorem isPlain_of_patternSplat {k : Kind} {splat : Splat} (h : k.patternSplat? = some splat) :
    isPlain k = true := by
  cases k <;> first | rfl | cases h

/-- **The step of the fold.** A node whose parts stand in slots builds the
calls of its parts in every role, and one more if it is a call. -/
theorem part_counts (hb : b.Filled ns ss) (himport : b.kind.isImport = false) :
    b.part.Counts (b.kind.weigh ns) := by
  have hplain : ∀ {m : Nat}, isPlain b.kind = true → m = ns.sum → m = b.kind.weigh ns :=
    fun hkind hm => hm.trans (weigh_eq_sum hkind ns).symm
  have hparts := hb.parts
  have hcounts := hb.counts
  -- only chains weigh more than their parts, and most roles belong to other kinds
  exact {
    idle := hb.weigh_atomic
    token := fun hkind _ _ => token_refused hkind
    statement := fun _ _ => calls_statement hb himport
    expression := fun _ _ => calls_expression hb
    argument := fun _ _ => calls_argument hb
    element := fun _ _ => calls_element hb
    target := fun _ _ => calls_target hb
    parameter := fun _ _ => calls_parameter hb
    body := fun hkind _ _ h => hplain (isPlain_of_holdsBody hkind) (calls_body hcounts h)
    arguments := fun hkind _ _ h =>
      hplain (congrArg isPlain hkind) (calls_arguments hcounts h)
    parameters := fun hkind _ _ h =>
      hplain (hkind.elim (congrArg isPlain) (congrArg isPlain)) (calls_parameters hcounts h)
    choice := fun hkind _ _ h =>
      hplain (isPlain_of_isClause hkind) (calls_choice hkind hparts h)
    assignment := fun hkind _ _ h =>
      hplain (hkind.elim (congrArg isPlain) (congrArg isPlain)) (calls_assignment hkind hparts h)
    definition := fun hkind _ _ _ h =>
      hplain (hkind.elim (congrArg isPlain) (congrArg isPlain)) (calls_definition hkind hparts h)
    entry := fun hkind _ _ h => hplain (congrArg isPlain hkind) (calls_pair hcounts h)
    bounds := fun hkind _ _ h => hplain (congrArg isPlain hkind) (calls_bounds hkind hparts h)
    starred := fun _ _ h => by
      obtain ⟨splat, p, hsplat, -⟩ := starred_eq_ok h
      rw [weigh_eq_sum (isPlain_of_patternSplat hsplat), sum_starred hcounts h] }

/-- An import is skipped, whatever stands in it. -/
theorem part_counts_of_isImport (h : b.kind.isImport = true) : b.part.Counts 0 := by
  obtain ⟨kind, text, loc, parts⟩ := b
  cases kind <;> cases h
  all_goals exact {
    idle := fun _ => rfl
    token := nofun
    statement := fun _ _ h => by cases h; rfl
    expression := fun _ _ h => nomatch h
    argument := fun _ _ h => nomatch h
    element := fun _ _ h => nomatch h
    target := fun _ _ h => nomatch h
    parameter := fun _ _ h => nomatch h
    body := nofun
    arguments := nofun
    parameters := nofun
    choice := nofun
    assignment := nofun
    definition := nofun
    entry := nofun
    bounds := nofun
    starred := fun _ _ _ => rfl }

end Branch

/-! ## Trees -/

namespace Cst

variable {file : String} {c : Cst}

/-- **Down a tree.** A tree whose slots are filled once builds its calls,
those in the middle of a chain of comparisons twice. -/
theorem part_counts (h : c.filledOnce = true) : (c.part file).Counts c.evaluations := by
  induction c using Cst.induction with
  | leaf kind text span =>
    cases hk : kind.isImport with
    | true =>
      rw [(calls_of_isImport (c := leaf kind text span) hk).2]
      exact Branch.part_counts_of_isImport hk
    | false => exact Branch.part_counts ⟨.nil, fun _ => rfl⟩ hk
  | tree kind children span ih =>
    cases hk : kind.isImport with
    | true =>
      rw [(calls_of_isImport (c := tree kind children span) hk).2]
      exact Branch.part_counts_of_isImport hk
    | false =>
      obtain ⟨hfills, hchildren⟩ := (filledOnce_tree hk).1 h
      have hcounts : ∀ x ∈ children.filter (!·.kind.isExtra), (x.part file).Counts x.evaluations :=
        fun x hx =>
          have hmem := (List.mem_filter.1 hx).1
          ih x hmem (hchildren x hmem)
      have hfilling := Filling.of_fillsOnce hcounts hfills
      rw [evaluations_tree hk, part, filter_partsOf]
      refine Branch.part_counts ⟨hfilling, fun hatomic => ?_⟩ hk
      have hzero := evaluations_eq_zero (calls_of_isAtomic h hatomic)
      rwa [evaluations_tree hk, Branch.weigh_eq_sum (Branch.isPlain_of_isAtomic hatomic)] at hzero

end Cst

/-- **Calls are kept.** A tree whose slots are filled once holds no more
calls than the program it builds. The program has those of the tree, where
an operand counts for every comparison it takes part in; so it has as many
as the tree exactly if no operand that takes part in two comparisons holds
a call. -/
theorem build_keeps_calls {file : String} {c : Cst} {p : Program} (hslots : c.filledOnce = true)
    (h : (c.build file).result = .ok p) :
    p.calls = c.evaluations ∧ c.calls ≤ p.calls ∧
      (p.calls = c.calls ↔ c.comparesOnce = true) := by
  have hcalls : p.calls = c.evaluations := by
    simp only [Cst.build] at h
    split at h
    · simp at h
    · rename_i hkind
      simp only [Traced.bind_eq_ok, Traced.pure_eq_ok] at h
      obtain ⟨body, hbody, rfl⟩ := h
      exact (Cst.part_counts hslots).body (by rw [Decidable.not_not.1 hkind]; rfl) _ _ hbody
  rw [hcalls]
  exact ⟨rfl, Cst.calls_le_evaluations hslots, Cst.evaluations_eq_calls_iff hslots⟩

/-- The tree of a call of a name. -/
def callTree (name : String) (arguments : List Cst) : Cst :=
  .tree .call [.leaf .identifier name none, .tree .argumentList arguments none] none

/-- The tree of two operands, or more, with `<` between them. -/
def lessTree (operands : List Cst) : Cst :=
  .tree .comparisonOperator (operands.intersperse (.leaf (.token "<") "<" none)) none

/-- A function with a call in a default and two in a comparison. -/
def callingFunction : Cst :=
  .tree .moduleRoot [.tree .functionDefinition [.leaf .identifier "f" none,
    .tree .parameters [.tree .defaultParameter [.leaf .identifier "x" none,
      .leaf (.token "=") "=" none, callTree "g" []] none] none,
    .tree .block [.tree .returnStatement
      [lessTree [callTree "h" [.leaf .identifier "x" none], callTree "k" []]] none] none] none] none

theorem build_keeps_calls_function : callingFunction.filledOnce = true ∧
    ∃ p, (callingFunction.build "m").result = .ok p ∧ p.calls = callingFunction.calls ∧
      p.calls = 3 := by
  have hslots : callingFunction.filledOnce = true := by decide
  obtain ⟨p, hp⟩ : ∃ p, (callingFunction.build "m").result = .ok p := ⟨_, rfl⟩
  have hcalls := (build_keeps_calls hslots hp).2.2.2 (by decide)
  exact ⟨hslots, p, hp, hcalls, hcalls.trans (by decide)⟩

/-- A statement with a call in the middle of a chain of comparisons. -/
def calledInChain : Cst :=
  .tree .moduleRoot [.tree .expressionStatement
    [lessTree [.leaf .identifier "a" none, callTree "f" [], .leaf .identifier "b" none]] none] none

/-- **A call in the middle of a chain is built twice.** -/
theorem chain_repeats_call : calledInChain.filledOnce = true ∧ calledInChain.calls = 1 ∧
    ∃ p, (calledInChain.build "m").result = .ok p ∧ p.calls = 2 :=
  ⟨by decide, by decide, _, rfl, rfl⟩

end Scribe
