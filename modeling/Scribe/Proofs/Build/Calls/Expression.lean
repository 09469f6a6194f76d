import Scribe.Proofs.Build.Calls.Count

/-!
# Expressions keep their calls

One statement for each rule of the builder that builds an expression: the
expression has the calls of the node's parts, and a call has one more. The
operands in the middle of a chain of comparisons count twice.

`Part.Counts` says how many calls a part builds, and `Filling` that parts
with their numbers stand in slots of which none is filled twice.
-/

namespace Scribe

variable {α β : Type}

/-! ## Lists of expressions and statements -/

namespace Expr

/-- The calls in a list are those of its expressions. -/
theorem callsIn_eq_sum (es : List Expr) : callsIn es = (es.map calls).sum := by
  induction es with
  | nil => rfl
  | cons e es ih => rw [callsIn, ih, List.map_cons, List.sum_cons]

/-- A hole in a sequence has no calls. -/
theorem itemCalls_eq_sum (is : List (Option Expr)) : itemCalls is = (is.map optionCalls).sum := by
  induction is with
  | nil => rfl
  | cons i is ih => rw [itemCalls, ih, List.map_cons, List.sum_cons]

theorem callsIn_filterMap (os : List (Option Expr)) : callsIn (os.filterMap id) = itemCalls os := by
  induction os with
  | nil => rfl
  | cons o os ih => cases o <;> simpa [itemCalls, callsIn, optionCalls] using ih

theorem itemCalls_map_some (es : List Expr) : itemCalls (es.map some) = callsIn es := by
  induction es with
  | nil => rfl
  | cons e es ih => simp [itemCalls, callsIn, optionCalls, ih]

end Expr

/-! ## Parts and their calls -/

/-- **The part builds this many calls in every role.** Where only some
kinds can play a role, only they have to. -/
structure Part.Counts (p : Part) (n : Nat) : Prop where
  idle : p.kind.isAtomic = true → n = 0
  /-- A token is nothing that could stand in a slot. -/
  token : p.kind.isToken = true → ∀ c e, (p.expression c).result ≠ .ok e ∧
    (p.element c).result ≠ .ok e ∧ (p.target c).result ≠ .ok e
  statement : ∀ c o, (p.statement c).result = .ok o → Stmt.callsIn o.toList = n
  expression : ∀ c e, (p.expression c).result = .ok e → e.calls = n
  argument : ∀ c e, (p.argument c).result = .ok e → e.calls = n
  element : ∀ c e, (p.element c).result = .ok e → e.calls = n
  target : ∀ c e, (p.target c).result = .ok e → e.calls = n
  parameter : ∀ c o, (p.parameter c).result = .ok o → Expr.optionCalls o = n
  body : p.kind.holdsBody = true → ∀ c ss, (p.body c).result = .ok ss → Stmt.callsIn ss = n
  arguments : p.kind = .argumentList →
    ∀ c es, (p.arguments c).result = .ok es → Expr.callsIn es = n
  parameters : p.kind = .parameters ∨ p.kind = .lambdaParameters →
    ∀ c es, (p.parameters c).result = .ok es → Expr.callsIn es = n
  choice : Branch.isClause p.kind = true → ∀ c ch, (p.choice c).result = .ok ch → ch.calls = n
  assignment : p.kind = .assignment ∨ p.kind = .augmentedAssignment →
    ∀ c st, (p.assignment c).result = .ok st → st.calls = n
  definition : p.kind = .functionDefinition ∨ p.kind = .classDefinition →
    ∀ ds c st, (p.definition ds c).result = .ok st → st.calls = n
  entry : p.kind = .pair → ∀ c e, (p.entry c).result = .ok e → e.calls = n
  bounds : p.kind = .slice → ∀ c e, (p.bounds c).result = .ok e → e.calls = n
  starred : ∀ c r, (p.starred c).result = .ok r → n = 0

section Built

variable {p : Part} {n : Nat} {c : Context} {e : Expr}

/-- What was built as a value was no token, and has the calls of its part. -/
theorem Part.Counts.built_expression (hp : p.Counts n) (h : (p.expression c).result = .ok e) :
    e.calls = n ∧ p.kind.isToken = false :=
  ⟨hp.expression c e h, Bool.eq_false_iff.2 fun htoken => (hp.token htoken c e).1 h⟩

theorem Part.Counts.built_element (hp : p.Counts n) (h : (p.element c).result = .ok e) :
    e.calls = n ∧ p.kind.isToken = false :=
  ⟨hp.element c e h, Bool.eq_false_iff.2 fun htoken => (hp.token htoken c e).2.1 h⟩

theorem Part.Counts.built_target (hp : p.Counts n) (h : (p.target c).result = .ok e) :
    e.calls = n ∧ p.kind.isToken = false :=
  ⟨hp.target c e h, Bool.eq_false_iff.2 fun htoken => (hp.token htoken c e).2.2 h⟩

end Built

/-- **Parts of a node in slots**, from the place `n` on: their calls, and
the slots they take. No slot is taken twice, and what takes none builds no
calls. -/
inductive Filling (parent : Kind) : Nat → List Part → List Nat → List TreeSlot → Prop
  | nil {n : Nat} : Filling parent n [] [] []
  | cons {n m : Nat} {p : Part} {ps : List Part} {ns : List Nat} {ss : List TreeSlot} : p.Counts m →
      (parent.slot n p.kind = none → m = 0) → (∀ s ∈ parent.slot n p.kind, s ∉ ss) →
      Filling parent (if parent.separates p.kind then n + 1 else n) ps ns ss →
      Filling parent n (p :: ps) (m :: ns) ((parent.slot n p.kind).toList ++ ss)

/-- Parts in slots have their numbers, one by one. -/
theorem Filling.counts {parent : Kind} {n : Nat} {ps : List Part} {ns : List Nat}
    {ss : List TreeSlot} (h : Filling parent n ps ns ss) : List.Forall₂ Part.Counts ps ns := by
  induction h with
  | nil => exact .nil
  | cons hp _ _ _ ih => exact .cons hp ih

/-- The children of a node in their slots. -/
theorem Filling.of_fillsOnce {parent : Kind} {file : String} {n : Nat} {xs : List Cst}
    (hxs : ∀ x ∈ xs, (x.part file).Counts x.evaluations) (h : parent.FillsOnce n xs) :
    Filling parent n (xs.map (Cst.part file)) (xs.map Cst.evaluations)
      (parent.slots n (xs.map Cst.kind)).reduceOption := by
  induction xs generalizing n with
  | nil => exact .nil
  | cons x xs ih =>
    have htail := ih (fun y hy => hxs y (List.mem_cons_of_mem _ hy)) h.tail
    have hslots : (parent.slots n ((x :: xs).map Cst.kind)).reduceOption =
        (parent.slot n (x.part file).kind).toList ++ (parent.slots
          (if parent.separates x.kind then n + 1 else n) (xs.map Cst.kind)).reduceOption := by
      rw [Cst.kind_part, List.map_cons, Kind.slots]
      cases parent.slot n x.kind <;> simp
    rw [hslots]
    refine .cons (hxs x (List.mem_cons_self ..)) (fun hnone => ?_) (fun s hs => ?_) ?_
    · exact Cst.evaluations_eq_zero (h.head_idle (by rwa [Cst.kind_part] at hnone))
    · exact h.head_fresh (by rwa [Cst.kind_part] at hs)
    · rwa [Cst.kind_part]

/-- Something holds **as long as the slot is still to be filled**: of a rule
that goes through the parts of a node, that it has read nothing into the
slot yet. -/
def Awaits (ss : List TreeSlot) (s : TreeSlot) (P : Prop) : Prop :=
  s ∈ ss → P

namespace Awaits

variable {s : TreeSlot} {ss : List TreeSlot} {o : Option TreeSlot} {P : Prop}

/-- What is awaited holds when the slot is filled, -/
theorem head (h : Awaits (o.toList ++ ss) s P) (ho : o = some s) : P :=
  h (by simp [ho])

/-- and goes on to be awaited behind other parts. -/
theorem tail (h : Awaits (o.toList ++ ss) s P) : Awaits ss s P :=
  fun hs => h (List.mem_append_right _ hs)

/-- A slot that no part takes any more is awaited whatever holds. -/
theorem of_not_mem (h : s ∉ ss) : Awaits ss s P :=
  fun hs => absurd hs h

end Awaits

/-- A token has no parts, so no calls. -/
theorem Part.isAtomic_of_isToken {p : Part} {name : String} (h : p.isToken name = true) :
    p.kind.isAtomic = true := by
  rw [beq_iff_eq.1 h]
  rfl

theorem Part.isAtomic_of_isTokenOf {p : Part} {names : List String}
    (h : p.isTokenOf names = true) : p.kind.isAtomic = true := by
  obtain ⟨name, -, hname⟩ := List.any_eq_true.1 h
  exact p.isAtomic_of_isToken hname

/-- Leaving parts without slots out leaves no calls out. -/
theorem counts_filter {ps : List Part} {ns : List Nat} {q : Part → Bool}
    (h : List.Forall₂ Part.Counts ps ns)
    (hq : ∀ p ∈ ps, q p = false → p.kind.isAtomic = true) :
    ∃ ms, List.Forall₂ Part.Counts (ps.filter q) ms ∧ ms.sum = ns.sum := by
  induction h with
  | nil => exact ⟨[], .nil, rfl⟩
  | @cons p n ps ns hp _ ih =>
    obtain ⟨ms, hms, hsum⟩ := ih fun r hr => hq r (List.mem_cons_of_mem _ hr)
    cases hkeep : q p with
    | true =>
      rw [List.filter_cons_of_pos hkeep]
      exact ⟨n :: ms, .cons hp hms, by simp [hsum]⟩
    | false =>
      have hn := hp.idle (hq p (List.mem_cons_self ..) hkeep)
      rw [List.filter_cons_of_neg (by simp [hkeep])]
      exact ⟨ms, hms, by simp [hsum, hn]⟩

/-- Parts that are built one after another have the calls of all. -/
theorem sum_buildEach {build : Part → Traced β} {count : β → Nat} {ps : List Part}
    {ns : List Nat} {bs : List β} (hps : List.Forall₂ Part.Counts ps ns)
    (hbuild : ∀ p ∈ ps, ∀ n y, p.Counts n → (build p).result = .ok y → count y = n)
    (h : (buildEach build ps).result = .ok bs) : (bs.map count).sum = ns.sum := by
  induction hps generalizing bs with
  | nil =>
    obtain rfl := Traced.pure_eq_ok.1 h
    rfl
  | @cons p n ps ns hp _ ih =>
    simp only [buildEach, Traced.bind_eq_ok, Traced.pure_eq_ok] at h
    obtain ⟨y, hy, ys, hys, rfl⟩ := h
    have hhead := hbuild p (List.mem_cons_self ..) n y hp hy
    have htail := ih (fun q hq => hbuild q (List.mem_cons_of_mem _ hq)) hys
    simp [hhead, htail]

namespace Branch

variable {b : Branch} {c inner : Context} {e : Expr} {ns : List Nat}

/-- Tokens that are left out leave no calls out. -/
theorem counts_without {names : List String} {ps : List Part}
    (hb : List.Forall₂ Part.Counts b.parts ns) (h : b.partsWithout names = ps) :
    ∃ ms, List.Forall₂ Part.Counts ps ms ∧ ms.sum = ns.sum := by
  subst h
  exact counts_filter hb fun p _ hp => p.isAtomic_of_isTokenOf (by simpa using hp)

/-! ## Parameters -/

/-- A starred name has no calls. -/
theorem sum_starred (hb : List.Forall₂ Part.Counts b.parts ns) {r : String × Splat}
    (h : (b.starred c).result = .ok r) : ns.sum = 0 := by
  obtain ⟨splat, p, -, hparts, hkind⟩ := starred_eq_ok h
  obtain ⟨ms, hms, hsum⟩ := counts_without hb hparts
  obtain _ | ⟨hp, ⟨⟩⟩ := hms
  simpa [← hsum] using hp.idle (by rw [hkind]; rfl)

theorem calls_starredReference (hb : List.Forall₂ Part.Counts b.parts ns)
    (h : (b.starredReference c).result = .ok e) : e.calls = ns.sum := by
  obtain ⟨name, splat, hname, rfl⟩ := starredReference_eq_ok h
  rw [sum_starred hb hname, Expr.calls]

/-- The calls of a parameter are those of its default; its name has none. -/
theorem calls_defaultParameter (hb : List.Forall₂ Part.Counts b.parts ns)
    (h : (b.defaultParameter c).result = .ok e) : e.calls = ns.sum := by
  obtain ⟨p, d, value, hparts, hkind, hvalue, rfl⟩ := defaultParameter_eq_ok h
  obtain ⟨ms, hms, hsum⟩ := counts_without hb hparts
  obtain _ | ⟨hp, _ | ⟨hd, ⟨⟩⟩⟩ := hms
  have hname := hp.idle (by rw [hkind]; rfl)
  simp [Expr.calls, ← hsum, hname, hd.expression _ _ hvalue]

/-- A type has no calls, whatever is in its brackets. -/
theorem calls_typedParameter (hb : List.Forall₂ Part.Counts b.parts ns)
    (h : (b.typedParameter c).result = .ok e) : e.calls = ns.sum := by
  obtain ⟨p, t, name, splat, hparts, htype, hname, rfl⟩ := typedParameter_eq_ok h
  obtain ⟨ms, hms, hsum⟩ := counts_without hb hparts
  obtain _ | ⟨hp, _ | ⟨ht, ⟨⟩⟩⟩ := hms
  have hzero := ht.idle (by rw [htype]; rfl)
  rcases hname with hkind | ⟨r, hr⟩
  · simp [Expr.calls, ← hsum, hzero, hp.idle (by rw [hkind]; rfl)]
  · simp [Expr.calls, ← hsum, hzero, hp.starred _ _ hr]

theorem calls_typedDefaultParameter (hb : List.Forall₂ Part.Counts b.parts ns)
    (h : (b.typedDefaultParameter c).result = .ok e) : e.calls = ns.sum := by
  obtain ⟨p, t, d, value, hparts, hkind, htype, hvalue, rfl⟩ := typedDefaultParameter_eq_ok h
  obtain ⟨ms, hms, hsum⟩ := counts_without hb hparts
  obtain _ | ⟨hp, _ | ⟨ht, _ | ⟨hd, ⟨⟩⟩⟩⟩ := hms
  have hname := hp.idle (by rw [hkind]; rfl)
  have hzero := ht.idle (by rw [htype]; rfl)
  simp [Expr.calls, ← hsum, hname, hzero, hd.expression _ _ hvalue]

/-- A separator among parameters has no calls. -/
theorem calls_parameters (hb : List.Forall₂ Part.Counts b.parts ns) {es : List Expr}
    (h : (b.parameters c).result = .ok es) : Expr.callsIn es = ns.sum := by
  obtain ⟨ms, hms, hsum⟩ := counts_without hb rfl
  simp only [parameters, Traced.bind_eq_ok, Traced.pure_eq_ok] at h
  obtain ⟨os, hos, rfl⟩ := h
  rw [Expr.callsIn_filterMap, Expr.itemCalls_eq_sum, ← hsum]
  exact sum_buildEach hms (fun p _ n o hp => hp.parameter _ o) hos

/-- The keyword is passed over, and the list of parameters is read once. -/
theorem calls_lambdaParts {n : Nat} {ps : List Part} {ss : List TreeSlot}
    (hps : Filling .lambda n ps ns ss) {es : List Expr} {body : Option Expr}
    {q : List Expr × Option Expr} (hes : Awaits ss (.part .lambdaParameters) (Expr.callsIn es = 0))
    (h : (lambdaParts inner es body ps).result = .ok q) :
    Expr.callsIn q.1 + Expr.optionCalls q.2 =
      Expr.callsIn es + Expr.optionCalls body + ns.sum := by
  induction hps generalizing es body with
  | nil =>
    obtain rfl := Traced.pure_eq_ok.1 h
    simp
  | @cons n m p ps ns ss hp hidle hfresh _ ih =>
    rw [List.sum_cons]
    unfold lambdaParts at h
    split at h
    · rename_i hskip
      -- the keyword is of the same kind as the whole, and a colon is a token
      have hm : m = 0 := by
        rcases hskip with hkind | htoken
        · exact hidle (by rw [hkind]; rfl)
        · exact hp.idle (p.isAtomic_of_isToken htoken)
      rw [ih hes.tail h, hm, Nat.zero_add]
    · split at h
      · rename_i hkind
        obtain ⟨es', hparameters, h⟩ := Traced.bind_eq_ok.1 h
        have hslot : Kind.slot .lambda n p.kind = some (.part .lambdaParameters) := by
          rw [hkind]
          rfl
        have hcount := hp.parameters (.inr hkind) _ _ hparameters
        rw [ih (.of_not_mem (hfresh _ hslot)) h, hcount, hes.head hslot]
        omega
      · split at h
        · rename_i hnone
          obtain ⟨v, hv, h⟩ := Traced.bind_eq_ok.1 h
          obtain rfl := Option.isNone_iff_eq_none.1 hnone
          rw [ih hes.tail h]
          simp only [Expr.optionCalls, hp.expression _ _ hv]
          omega
        · simp at h

/-- The keyword in front is passed over and has no calls. -/
theorem calls_lambda {ss : List TreeSlot} (hb : Filling .lambda 0 b.parts ns ss)
    (h : (b.lambda c).result = .ok e) : e.calls = ns.sum := by
  obtain ⟨ps, body, hparts, rfl⟩ := lambda_eq_ok h
  have hcalls := calls_lambdaParts hb (fun _ => rfl) hparts
  simpa [Expr.calls, Expr.callsIn, Expr.optionCalls] using hcalls

/-! ## Sequences and dictionaries -/

/-- The last place of a sequence is empty, or there is no place yet. -/
def LastFree (is : List (Option Expr)) : Prop :=
  ∀ o ∈ is.getLast?, o = none

theorem itemCalls_append (is js : List (Option Expr)) :
    Expr.itemCalls (is ++ js) = Expr.itemCalls is + Expr.itemCalls js := by
  simp [Expr.itemCalls_eq_sum]

/-- Another place has no calls, -/
theorem itemCalls_separate (is : List (Option Expr)) :
    Expr.itemCalls (Items.separate is) = Expr.itemCalls is := by
  cases is <;> simp [Items.separate, itemCalls_append, Expr.itemCalls, Expr.optionCalls]

theorem lastFree_concat (is : List (Option Expr)) : LastFree (is ++ [none]) := by
  intro o ho
  rw [List.getLast?_concat] at ho
  exact (Option.some.inj ho).symm

/-- and is free. -/
theorem lastFree_separate (is : List (Option Expr)) : LastFree (Items.separate is) := by
  cases is with
  | nil => exact lastFree_concat [none]
  | cons i is => exact lastFree_concat (i :: is)

/-- An item that is put at a free place is one more. At a taken place it would
replace the one that is there. -/
theorem itemCalls_place {is : List (Option Expr)} (h : LastFree is) (e : Expr) :
    Expr.itemCalls (Items.place e is) = Expr.itemCalls is + e.calls := by
  rcases List.eq_nil_or_concat' is with rfl | ⟨js, o, rfl⟩
  · simp [Items.place, Expr.itemCalls, Expr.optionCalls]
  · obtain rfl : o = none := h o (by simp)
    have hplace : Items.place e (js ++ [none]) = js ++ [some e] := by
      cases js with
      | nil => rfl
      | cons j js => exact congrArg (· ++ [some e]) List.dropLast_concat
    rw [hplace]
    simp [itemCalls_append, Expr.itemCalls, Expr.optionCalls]

/-- Items have the place behind the commas in front of them as their slot. -/
theorem slot_of_isSequence {k child : Kind} {n : Nat} (hk : k.isSequence = true)
    (hchild : child.isToken = false) : k.slot n child = some (.place n) := by
  cases k <;> first | (simp [Kind.slot, Kind.isAtomic, hchild]; done) | cases hk

theorem separates_of_isSequence {k : Kind} (hk : k.isSequence = true) (child : Kind) :
    k.separates child = (child == .token ",") := by
  cases k <;> first | rfl | cases hk

/-- **One item at each place.** An item is put at the last place only if
that place is empty. -/
theorem calls_buildItems {build : Part → Traced Expr} {parent : Kind} {n : Nat} {ps : List Part}
    {ss : List TreeSlot} (hk : parent.isSequence = true) (hps : Filling parent n ps ns ss)
    (hbuild : ∀ p m e, p.Counts m → (build p).result = .ok e →
      e.calls = m ∧ p.kind.isToken = false)
    {is js : List (Option Expr)} (hfree : Awaits ss (.place n) (LastFree is))
    (h : (buildItems build is ps).result = .ok js) :
    Expr.itemCalls js = Expr.itemCalls is + ns.sum := by
  induction hps generalizing is with
  | nil =>
    obtain rfl := Traced.pure_eq_ok.1 h
    simp
  | @cons n m p ps ns ss hp _ hfresh _ ih =>
    rw [separates_of_isSequence hk] at ih
    rw [List.sum_cons]
    unfold buildItems at h
    split at h
    · -- brackets stand beside the items, not between them
      rename_i hbracket
      have hnext : (p.kind == .token ",") = false := by
        obtain ⟨name, hname, htoken⟩ := List.any_eq_true.1 hbracket
        have hnames : ∀ name ∈ bracketTokens, (Kind.token name == .token ",") = false := by decide
        rw [beq_iff_eq.1 htoken]
        exact hnames name hname
      have hm := hp.idle (p.isAtomic_of_isTokenOf hbracket)
      rw [hnext] at ih
      rw [ih hfree.tail h, hm, Nat.zero_add]
    · split at h
      · rename_i hcomma
        have hnext : (p.kind == .token ",") = true := hcomma
        have hm := hp.idle (p.isAtomic_of_isToken hcomma)
        rw [hnext] at ih
        rw [ih (fun _ => lastFree_separate is) h, itemCalls_separate, hm, Nat.zero_add]
      · rename_i hcomma
        obtain ⟨e, he, h⟩ := Traced.bind_eq_ok.1 h
        obtain ⟨hcalls, htoken⟩ := hbuild p m e hp he
        have hnext : (p.kind == .token ",") = false := by simpa [Part.isToken] using hcomma
        have hslot := slot_of_isSequence (n := n) hk htoken
        rw [hnext] at ih
        rw [ih (.of_not_mem (hfresh _ hslot)) h, itemCalls_place (hfree.head hslot), hcalls]
        omega

/-- **Every item of a sequence is kept**, as no place is filled twice. -/
theorem calls_items {build : Part → Context → Traced Expr} {ss : List TreeSlot}
    (hk : b.kind.isSequence = true) (hb : Filling b.kind 0 b.parts ns ss)
    (hbuild : ∀ p m c e, p.Counts m → (build p c).result = .ok e →
      e.calls = m ∧ p.kind.isToken = false)
    {is : List (Option Expr)} (h : (b.items c build).result = .ok is) :
    Expr.itemCalls is = ns.sum := by
  have hcalls := calls_buildItems hk hb (fun p m e => hbuild p m _ e)
    (fun _ => by simp [LastFree]) h
  simpa [Expr.itemCalls] using hcalls

theorem calls_elements {kind : SequenceKind} {ss : List TreeSlot} (hk : b.kind.isSequence = true)
    (hb : Filling b.kind 0 b.parts ns ss) (h : (b.elements kind c).result = .ok e) :
    e.calls = ns.sum := by
  obtain ⟨is, his, rfl⟩ := elements_eq_ok h
  rw [Expr.calls]
  exact calls_items hk hb (fun p m c e hp => hp.built_element) his

theorem calls_targets {kind : SequenceKind} {ss : List TreeSlot} (hk : b.kind.isSequence = true)
    (hb : Filling b.kind 0 b.parts ns ss) (h : (b.targets kind c).result = .ok e) :
    e.calls = ns.sum := by
  obtain ⟨is, his, rfl⟩ := targets_eq_ok h
  rw [Expr.calls]
  exact calls_items hk hb (fun p m c e hp => hp.built_target) his

/-- The calls of a dictionary are those of its entries. -/
theorem calls_dictionary (hb : List.Forall₂ Part.Counts b.parts ns)
    (h : (b.dictionary c).result = .ok e) : e.calls = ns.sum := by
  simp only [dictionary, Traced.bind_eq_ok, Traced.pure_eq_ok] at h
  obtain ⟨es, hes, rfl⟩ := h
  obtain ⟨ms, hms, hsum⟩ := counts_without hb (rfl : b.partsWithout ("," :: bracketTokens) = _)
  rw [Expr.calls, Expr.callsIn_eq_sum, ← hsum]
  refine sum_buildEach hms (fun p _ n x hp hx => ?_) hes
  split at hx
  · rename_i hkind
    exact hp.entry hkind _ _ hx
  · exact hp.argument _ _ hx
  · simp at hx

theorem calls_pair (hb : List.Forall₂ Part.Counts b.parts ns) (h : (b.pair c).result = .ok e) :
    e.calls = ns.sum := by
  obtain ⟨k, v, key, value, hparts, hkey, hvalue, rfl⟩ := pair_eq_ok h
  obtain ⟨ms, hms, hsum⟩ := counts_without hb hparts
  obtain _ | ⟨hk, _ | ⟨hv, ⟨⟩⟩⟩ := hms
  simp [Expr.calls, ← hsum, hk.expression _ _ hkey, hv.expression _ _ hvalue]

/-! ## Access and calls -/

/-- A property has no calls. -/
theorem calls_memberAccess (hb : List.Forall₂ Part.Counts b.parts ns)
    (h : (b.memberAccess c).result = .ok e) : e.calls = ns.sum := by
  obtain ⟨o, p, object, hparts, hkind, hobject, rfl⟩ := memberAccess_eq_ok h
  obtain ⟨ms, hms, hsum⟩ := counts_without hb hparts
  obtain _ | ⟨ho, _ | ⟨hp, ⟨⟩⟩⟩ := hms
  have hproperty := hp.idle (by rw [hkind]; rfl)
  simp [Expr.calls, ← hsum, ho.expression _ _ hobject, hproperty]

/-- A call is one more than what is called and passed. -/
theorem calls_call (hb : List.Forall₂ Part.Counts b.parts ns) (h : (b.call c).result = .ok e) :
    e.calls = 1 + ns.sum := by
  obtain ⟨f, as, callee, arguments, hparts, hkind, hcallee, harguments, rfl⟩ := call_eq_ok h
  rw [hparts] at hb
  obtain _ | ⟨hf, _ | ⟨has, ⟨⟩⟩⟩ := hb
  simp [Expr.calls, hf.expression _ _ hcallee, has.arguments hkind _ _ harguments, Nat.add_assoc]

/-- The calls of a list of arguments are those of the arguments. -/
theorem calls_arguments (hb : List.Forall₂ Part.Counts b.parts ns) {es : List Expr}
    (h : (b.arguments c).result = .ok es) : Expr.callsIn es = ns.sum := by
  obtain ⟨ms, hms, hsum⟩ := counts_without hb rfl
  rw [Expr.callsIn_eq_sum, ← hsum]
  exact sum_buildEach hms (fun p _ n e hp => hp.argument _ e) h

theorem calls_keywordArgument (hb : List.Forall₂ Part.Counts b.parts ns)
    (h : (b.keywordArgument c).result = .ok e) : e.calls = ns.sum := by
  obtain ⟨n, v, value, hparts, hkind, hvalue, rfl⟩ := keywordArgument_eq_ok h
  obtain ⟨ms, hms, hsum⟩ := counts_without hb hparts
  obtain _ | ⟨hn, _ | ⟨hv, ⟨⟩⟩⟩ := hms
  have hname := hn.idle (by rw [hkind]; rfl)
  simp [Expr.calls, ← hsum, hname, hv.expression _ _ hvalue]

/-- A star is a token. -/
theorem isAtomic_of_starSplat {p : Part} {splat : Splat} (h : starSplat? p = some splat) :
    p.kind.isAtomic = true := by
  unfold starSplat? at h
  split at h
  · exact p.isAtomic_of_isToken ‹_›
  · split at h
    · exact p.isAtomic_of_isToken ‹_›
    · cases h

theorem calls_splat (hb : List.Forall₂ Part.Counts b.parts ns) (h : (b.splat c).result = .ok e) :
    e.calls = ns.sum := by
  obtain ⟨star, p, splat, hparts, hstar, hkind, rfl⟩ := splat_eq_ok h
  rw [hparts] at hb
  obtain _ | ⟨hs, _ | ⟨hp, ⟨⟩⟩⟩ := hb
  simp [Expr.calls, hs.idle (isAtomic_of_starSplat hstar), hp.idle (by rw [hkind]; rfl)]

/-- A tuple of several indices has their calls. -/
theorem calls_indexOf (indices : List Expr) : (indexOf indices).calls = Expr.callsIn indices := by
  unfold indexOf
  split
  · simp [Expr.callsIn]
  · rw [Expr.calls, Expr.itemCalls_map_some]

theorem calls_subscript (hb : List.Forall₂ Part.Counts b.parts ns)
    (h : (b.subscript c).result = .ok e) : e.calls = ns.sum := by
  obtain ⟨v, rest, value, indices, hparts, hvalue, hindices, -, rfl⟩ := subscript_eq_ok h
  rw [hparts] at hb
  obtain _ | ⟨hv, hrest⟩ := hb
  obtain ⟨ms, hms, hsum⟩ := counts_filter (q := fun p => !p.isTokenOf ["[", "]", ","]) hrest
    fun p _ hp => p.isAtomic_of_isTokenOf (by simpa using hp)
  have hcalls : (indices.map Expr.calls).sum = ms.sum := by
    refine sum_buildEach hms (fun p _ n x hp hx => ?_) hindices
    unfold index at hx
    split at hx
    · rename_i hkind
      exact hp.bounds hkind _ _ hx
    · exact hp.expression _ _ hx
  rw [Expr.calls, calls_indexOf, Expr.callsIn_eq_sum, hcalls, hsum, hv.expression _ _ hvalue,
    List.sum_cons]

/-! ## Slices -/

namespace Bounds

/-- The bound at a place. -/
def get (bs : Bounds) : Nat → Option Expr
  | 0 => bs.start
  | 1 => bs.stop
  | 2 => bs.step
  | _ => none

/-- The calls in the bounds. -/
def calls (bs : Bounds) : Nat :=
  Expr.optionCalls bs.start + Expr.optionCalls bs.stop + Expr.optionCalls bs.step

variable {bs bs' : Bounds} {place : Nat} {e : Expr}

/-- A bound that is set at a free place is one more, -/
theorem calls_set (h : bs.set? place e = some bs') (hfree : bs.get place = none) :
    bs'.calls = bs.calls + e.calls := by
  unfold set? at h
  split at h
  all_goals cases h
  all_goals
    simp only [get] at hfree
    simp only [calls, hfree, Expr.optionCalls]
    omega

/-- and leaves the other bounds as they are. -/
theorem get_set (h : bs.set? place e = some bs') {m : Nat} (hm : m ≠ place) :
    bs'.get m = bs.get m := by
  unfold set? at h
  split at h
  all_goals cases h
  all_goals
    unfold get
    split <;> first | rfl | exact absurd rfl hm

end Bounds

theorem slot_slice {child : Kind} {n : Nat} (hchild : child.isToken = false) :
    Kind.slot .slice n child = some (.place n) := by
  simp [Kind.slot, Kind.isAtomic, hchild]

/-- **One bound at each place.** -/
theorem calls_buildBounds {n : Nat} {ps : List Part} {ss : List TreeSlot}
    (hps : Filling .slice n ps ns ss) {bs bs' : Bounds} (hlater : ∀ m, n < m → bs.get m = none)
    (hfree : Awaits ss (.place n) (bs.get n = none))
    (h : (buildBounds inner n bs ps).result = .ok bs') : bs'.calls = bs.calls + ns.sum := by
  induction hps generalizing bs with
  | nil =>
    obtain rfl := Traced.pure_eq_ok.1 h
    simp
  | @cons n m p ps ns ss hp _ hfresh _ ih =>
    have hseparates : Kind.separates .slice p.kind = (p.kind == .token ":") := rfl
    rw [hseparates] at ih
    rw [List.sum_cons]
    unfold buildBounds at h
    split at h
    · rename_i hcolon
      have hnext : (p.kind == .token ":") = true := hcolon
      have hm := hp.idle (p.isAtomic_of_isToken hcolon)
      rw [hnext] at ih
      rw [ih (fun k hk => hlater k (by simp at hk; omega)) (fun _ => hlater _ (by simp)) h, hm,
        Nat.zero_add]
    · -- a bound takes the place it stands at, and only a colon leads to the next
      rename_i hcolon
      obtain ⟨e, he, h⟩ := Traced.bind_eq_ok.1 h
      have hnext : (p.kind == .token ":") = false := by simpa [Part.isToken] using hcolon
      obtain ⟨hcalls, htoken⟩ := hp.built_expression he
      have hslot := slot_slice (n := n) htoken
      rw [hnext] at ih
      split at h
      · rename_i bs'' hset
        have hlater' : ∀ k, n < k → bs''.get k = none := fun k hk => by
          rw [Bounds.get_set hset (Nat.ne_of_gt hk), hlater k hk]
        rw [ih hlater' (.of_not_mem (hfresh _ hslot)) h,
          Bounds.calls_set hset (hfree.head hslot), hcalls]
        omega
      · simp at h

/-- **Every bound of a slice is kept**, as no place is filled twice. -/
theorem calls_bounds {ss : List TreeSlot} (hkind : b.kind = .slice)
    (hb : Filling b.kind 0 b.parts ns ss) (h : (b.bounds c).result = .ok e) : e.calls = ns.sum := by
  obtain ⟨bs, hbs, rfl⟩ := bounds_eq_ok h
  rw [hkind] at hb
  have hnone : ∀ m, Bounds.get ⟨none, none, none⟩ m = none := fun m => by
    unfold Bounds.get
    split <;> rfl
  have hcalls := calls_buildBounds hb (fun m _ => hnone m) (fun _ => hnone 0) hbs
  simpa [Expr.calls, Bounds.calls, Expr.optionCalls] using hcalls

/-! ## Operators -/

theorem mem_named {k : Kind} (h : k.isToken = false) : k ∈ Kind.named := by
  cases k <;> first | decide | cases h

/-- What no kind with a constructor of its own is can only be a token. -/
theorem isAtomic_of_not_named {P : Kind → Prop} (hnamed : ∀ k ∈ Kind.named, ¬ P k) {k : Kind}
    (h : P k) : k.isAtomic = true := by
  cases hk : k.isToken with
  | true => cases k <;> first | rfl | cases hk
  | false => exact absurd h (hnamed k (mem_named hk))

/-- What spells an operator is a token. -/
theorem isAtomic_of_binaryOp {k : Kind} {op : BinaryOp}
    (h : BinaryOp.ofSpelling? k.name = some op) : k.isAtomic = true :=
  isAtomic_of_not_named (P := fun k => (BinaryOp.ofSpelling? k.name).isSome = true)
    (by decide +kernel) (Option.isSome_of_eq_some h)

theorem isAtomic_of_unaryOp {k : Kind} {op : UnaryOp}
    (h : UnaryOp.ofSpelling? k.name = some op) : k.isAtomic = true :=
  isAtomic_of_not_named (P := fun k => (UnaryOp.ofSpelling? k.name).isSome = true)
    (by decide +kernel) (Option.isSome_of_eq_some h)

theorem isAtomic_of_assignmentOperator {k : Kind}
    (h : assignmentOperators.contains k.name = true) : k.isAtomic = true :=
  isAtomic_of_not_named (P := fun k => assignmentOperators.contains k.name = true)
    (by decide +kernel) h

theorem calls_binary (hb : List.Forall₂ Part.Counts b.parts ns)
    (h : (b.binary c).result = .ok e) : e.calls = ns.sum := by
  obtain ⟨l, o, r, left, op, right, hparts, hleft, hop, hright, rfl⟩ := binary_eq_ok h
  rw [hparts] at hb
  obtain _ | ⟨hl, _ | ⟨ho, _ | ⟨hr, ⟨⟩⟩⟩⟩ := hb
  simp [Expr.calls, hl.expression _ _ hleft, ho.idle (isAtomic_of_binaryOp hop),
    hr.expression _ _ hright]

/-- A conjunction has the calls of its comparisons. -/
theorem calls_conjunction {loc : Option Location} (first : Expr) (rest : List Expr) :
    (conjunction loc first rest).calls = first.calls + (rest.map Expr.calls).sum := by
  unfold conjunction
  induction rest generalizing first with
  | nil => simp
  | cons e rest ih => simp [ih, Expr.calls, Nat.add_assoc]

/-- **Every operand counts once for each comparison it takes part in.** -/
theorem calls_comparisons {loc : Option Location} {ps : List Part}
    (hps : List.Forall₂ Part.Counts ps ns) (hlength : 3 ≤ ps.length) (hodd : ps.length % 2 = 1)
    {es : List Expr} (h : (buildEach (comparison loc inner) (comparisons ps)).result = .ok es) :
    (es.map Expr.calls).sum = ns.sum + (middles ns).sum := by
  induction ps using comparisons.induct generalizing ns es with
  | case1 a o x rest ih =>
    obtain _ | ⟨ha, _ | ⟨ho, hxs⟩⟩ := hps
    rw [comparisons] at h
    simp only [buildEach, Traced.bind_eq_ok, Traced.pure_eq_ok] at h
    obtain ⟨e, he, es, hes, rfl⟩ := h
    obtain ⟨left, op, right, hleft, hop, hright, rfl⟩ := comparison_eq_ok he
    obtain _ | ⟨hx, hrest⟩ := hxs
    have hleft := ha.expression _ _ hleft
    have hop := ho.idle (isAtomic_of_binaryOp hop)
    have hright := hx.expression _ _ hright
    cases hrest with
    | nil =>
      obtain rfl := Traced.pure_eq_ok.1 hes
      simp [Expr.calls, middles, hleft, hop, hright]
    | cons ho' hrest =>
      -- the operand on the right is the first of the chain that remains
      simp only [List.length_cons] at hodd
      have htail := ih (.cons hx (.cons ho' hrest)) (by simp only [List.length_cons]; omega)
        (by simp only [List.length_cons]; omega) hes
      simp only [List.sum_cons] at htail
      simp only [List.map_cons, List.sum_cons, Expr.calls, middles, hleft, hop, hright, htail]
      omega
  | case2 ps hshort =>
    rcases ps with _ | ⟨a, _ | ⟨o, _ | ⟨x, rest⟩⟩⟩
    · simp at hlength
    · simp at hlength
    · simp at hlength
    · exact absurd rfl (hshort a o x rest)

/-- **A chain repeats its inner operands**, and with them their calls. -/
theorem calls_chain (hb : List.Forall₂ Part.Counts b.parts ns) (h : (b.chain c).result = .ok e) :
    e.calls = ns.sum + (middles ns).sum := by
  obtain ⟨first, rest, hlength, hodd, hes, rfl⟩ := chain_eq_ok h
  rw [calls_conjunction, ← calls_comparisons hb hlength hodd hes, List.map_cons, List.sum_cons]

theorem calls_negation (hb : List.Forall₂ Part.Counts b.parts ns)
    (h : (b.negation c).result = .ok e) : e.calls = ns.sum := by
  obtain ⟨p, v, hparts, hv, rfl⟩ := negation_eq_ok h
  obtain ⟨ms, hms, hsum⟩ := counts_without hb hparts
  obtain _ | ⟨hp, ⟨⟩⟩ := hms
  simp [Expr.calls, ← hsum, hp.expression _ _ hv]

theorem calls_unary (hb : List.Forall₂ Part.Counts b.parts ns) (h : (b.unary c).result = .ok e) :
    e.calls = ns.sum := by
  obtain ⟨o, p, op, v, hparts, hop, hv, rfl⟩ := unary_eq_ok h
  rw [hparts] at hb
  obtain _ | ⟨ho, _ | ⟨hp, ⟨⟩⟩⟩ := hb
  simp [Expr.calls, ho.idle (isAtomic_of_unaryOp hop), hp.expression _ _ hv]

theorem calls_conditional (hb : List.Forall₂ Part.Counts b.parts ns)
    (h : (b.conditional c).result = .ok e) : e.calls = ns.sum := by
  obtain ⟨x, t, y, vx, vt, vy, hparts, hvx, hvt, hvy, rfl⟩ := conditional_eq_ok h
  obtain ⟨ms, hms, hsum⟩ := counts_without hb hparts
  obtain _ | ⟨hx, _ | ⟨ht, _ | ⟨hy, ⟨⟩⟩⟩⟩ := hms
  simp only [Expr.calls, ← hsum, hx.expression _ _ hvx, ht.expression _ _ hvt,
    hy.expression _ _ hvy, List.sum_cons, List.sum_nil]
  omega

theorem calls_parenthesized (hb : List.Forall₂ Part.Counts b.parts ns)
    (h : (b.parenthesized c).result = .ok e) : e.calls = ns.sum := by
  obtain ⟨p, v, hparts, hv, rfl⟩ := parenthesized_eq_ok h
  obtain ⟨ms, hms, hsum⟩ := counts_without hb hparts
  obtain _ | ⟨hp, ⟨⟩⟩ := hms
  simp [Expr.calls, ← hsum, hp.expression _ _ hv]

/-! ## Values, arguments, elements and targets -/

/-- **A node with its parts in slots.** What has no slots has no calls. -/
structure Filled (b : Branch) (ns : List Nat) (ss : List TreeSlot) : Prop where
  parts : Filling b.kind 0 b.parts ns ss
  atomic : b.kind.isAtomic = true → ns.sum = 0

variable {ss : List TreeSlot}

theorem Filled.counts (hb : b.Filled ns ss) : List.Forall₂ Part.Counts b.parts ns :=
  hb.parts.counts

/-- The kinds of nodes that have the calls of their parts: a call adds
itself, and a chain repeats some operands. -/
def isPlain : Kind → Bool
  | .call | .comparisonOperator => false
  | _ => true

/-- A plain node weighs what its parts do. -/
theorem weigh_eq_sum {k : Kind} (h : isPlain k = true) (ns : List Nat) : k.weigh ns = ns.sum := by
  have hcall : k ≠ .call := by
    rintro rfl
    cases h
  have hchain : k ≠ .comparisonOperator := by
    rintro rfl
    cases h
  simp [Kind.weigh, Kind.tally, hcall, hchain]

theorem isPlain_of_isAtomic {k : Kind} (h : k.isAtomic = true) : isPlain k = true := by
  cases k <;> first | rfl | cases h

/-- What has no parts has no calls. -/
theorem Filled.weigh_atomic (hb : b.Filled ns ss) (hatomic : b.kind.isAtomic = true) :
    b.kind.weigh ns = 0 := by
  rw [weigh_eq_sum (isPlain_of_isAtomic hatomic), hb.atomic hatomic]

/-- **A value has the calls of its tree**, those that its node weighs. -/
theorem calls_expression (hb : b.Filled ns ss) (h : (b.expression c).result = .ok e) :
    e.calls = b.kind.weigh ns := by
  -- a leaf builds no call and has none
  have hleaf : b.kind.isAtomic = true → e.calls = 0 → e.calls = b.kind.weigh ns :=
    fun hatomic hcalls => hcalls.trans (hb.weigh_atomic hatomic).symm
  unfold expression at h
  split at h <;> rename_i hkind
  · obtain rfl := Traced.pure_eq_ok.1 h
    exact hleaf (by rw [hkind]; rfl) rfl
  · rw [hkind, weigh_eq_sum rfl]
    exact calls_memberAccess hb.counts h
  · rw [hkind]
    exact calls_call hb.counts h
  · rw [hkind, weigh_eq_sum rfl]
    exact calls_subscript hb.counts h
  · rw [hkind, weigh_eq_sum rfl]
    exact calls_binary hb.counts h
  · rw [hkind, weigh_eq_sum rfl]
    exact calls_binary hb.counts h
  · rw [hkind, calls_chain hb.counts h]
    simp [Kind.weigh, Kind.tally]
  · rw [hkind, weigh_eq_sum rfl]
    exact calls_negation hb.counts h
  · rw [hkind, weigh_eq_sum rfl]
    exact calls_unary hb.counts h
  · rw [hkind, weigh_eq_sum rfl]
    exact calls_conditional hb.counts h
  · rw [hkind, weigh_eq_sum rfl]
    exact calls_parenthesized hb.counts h
  · rw [hkind, weigh_eq_sum rfl]
    exact calls_lambda (hkind ▸ hb.parts) h
  · obtain rfl := string_eq_ok h
    exact hleaf (by rw [hkind]; rfl) rfl
  · obtain rfl := Traced.pure_eq_ok.1 h
    exact hleaf (by rw [hkind]; rfl) rfl
  · obtain rfl := Traced.pure_eq_ok.1 h
    exact hleaf (by rw [hkind]; rfl) rfl
  · obtain rfl := Traced.pure_eq_ok.1 h
    exact hleaf (by rw [hkind]; rfl) rfl
  · obtain rfl := Traced.pure_eq_ok.1 h
    exact hleaf (by rw [hkind]; rfl) rfl
  · obtain rfl := Traced.pure_eq_ok.1 h
    exact hleaf (by rw [hkind]; rfl) rfl
  · rw [hkind, weigh_eq_sum rfl]
    exact calls_elements (by rw [hkind]; rfl) hb.parts h
  · rw [hkind, weigh_eq_sum rfl]
    exact calls_elements (by rw [hkind]; rfl) hb.parts h
  · rw [hkind, weigh_eq_sum rfl]
    exact calls_elements (by rw [hkind]; rfl) hb.parts h
  · rw [hkind, weigh_eq_sum rfl]
    exact calls_dictionary hb.counts h
  · simp at h

/-- **So has an argument,** -/
theorem calls_argument (hb : b.Filled ns ss) (h : (b.argument c).result = .ok e) :
    e.calls = b.kind.weigh ns := by
  unfold argument at h
  split at h
  · rename_i hkind
    rw [hkind, weigh_eq_sum rfl]
    exact calls_keywordArgument hb.counts h
  · rename_i hkind
    rw [hkind, weigh_eq_sum rfl]
    exact calls_splat hb.counts h
  · rename_i hkind
    rw [hkind, weigh_eq_sum rfl]
    exact calls_splat hb.counts h
  · exact calls_expression hb h

/-- an element, -/
theorem calls_element (hb : b.Filled ns ss) (h : (b.element c).result = .ok e) :
    e.calls = b.kind.weigh ns := by
  unfold element at h
  split at h
  · rename_i hkind
    rw [hkind, weigh_eq_sum rfl]
    exact calls_splat hb.counts h
  · exact calls_expression hb h

/-- a target -/
theorem calls_target (hb : b.Filled ns ss) (h : (b.target c).result = .ok e) :
    e.calls = b.kind.weigh ns := by
  unfold target at h
  split at h <;> rename_i hkind
  · obtain rfl := Traced.pure_eq_ok.1 h
    exact (hb.weigh_atomic (by rw [hkind]; rfl)).symm
  · rw [hkind, weigh_eq_sum rfl]
    exact calls_memberAccess hb.counts h
  · rw [hkind, weigh_eq_sum rfl]
    exact calls_subscript hb.counts h
  · rw [hkind, weigh_eq_sum rfl]
    exact calls_targets (by rw [hkind]; rfl) hb.parts h
  · rw [hkind, weigh_eq_sum rfl]
    exact calls_targets (by rw [hkind]; rfl) hb.parts h
  · rw [hkind, weigh_eq_sum rfl]
    exact calls_targets (by rw [hkind]; rfl) hb.parts h
  · rw [hkind, weigh_eq_sum rfl]
    exact calls_starredReference hb.counts h
  · simp at h

/-- and a parameter. -/
theorem calls_parameter (hb : b.Filled ns ss) {o : Option Expr}
    (h : (b.parameter c).result = .ok o) : Expr.optionCalls o = b.kind.weigh ns := by
  have hsome : ∀ {x : Traced Expr}, isPlain b.kind = true → (some <$> x).result = .ok o →
      (∀ e, x.result = .ok e → e.calls = ns.sum) → Expr.optionCalls o = b.kind.weigh ns := by
    intro x hplain hx hcalls
    obtain ⟨e, he, rfl⟩ := Traced.map_eq_ok.1 hx
    rw [weigh_eq_sum hplain, Expr.optionCalls, hcalls e he]
  unfold parameter at h
  split at h <;> rename_i hkind
  · obtain rfl := Traced.pure_eq_ok.1 h
    exact (hb.weigh_atomic (by rw [hkind]; rfl)).symm
  · exact hsome (by rw [hkind]; rfl) h fun e => calls_defaultParameter hb.counts
  · exact hsome (by rw [hkind]; rfl) h fun e => calls_typedParameter hb.counts
  · exact hsome (by rw [hkind]; rfl) h fun e => calls_typedDefaultParameter hb.counts
  · exact hsome (by rw [hkind]; rfl) h fun e => calls_starredReference hb.counts
  · exact hsome (by rw [hkind]; rfl) h fun e => calls_starredReference hb.counts
  · cases h
    exact (hb.weigh_atomic (by rw [hkind]; rfl)).symm
  · cases h
    exact (hb.weigh_atomic (by rw [hkind]; rfl)).symm
  · simp at h

/-- A token is refused as anything that could stand in a slot. -/
theorem token_refused (hkind : b.kind.isToken = true) :
    (b.expression c).result ≠ .ok e ∧ (b.element c).result ≠ .ok e ∧
      (b.target c).result ≠ .ok e := by
  obtain ⟨kind, text, loc, parts⟩ := b
  cases kind with
  | token name => exact ⟨nofun, nofun, nofun⟩
  | _ => cases hkind

end Branch

end Scribe
