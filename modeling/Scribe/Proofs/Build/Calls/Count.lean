import Mathlib
import Scribe.Proofs.Build.Inversion
import Scribe.Proofs.Build.Trimming

/-!
# Counting calls

How many calls a program holds and how many a tree holds, and what has to
be said of a tree before the two can be compared.

The children of a node stand in *slots*. A definition has one slot for
each kind of part, a clause one for its body, a sequence one between two
separators, and so on (`Kind.slot`). The builder reads a slot that is
filled again as if it had been filled only once, so calls are kept only in
trees whose slots are filled once: `Cst.filledOnce`. The grammar of the
source allows no others.

The operands of a chain of comparisons are built once for every comparison
they take part in. `Cst.evaluations` counts calls with this in mind.
-/

namespace Scribe

/-! ## Calls of a program -/

mutual

/-- The calls in an expression. -/
@[simp] def Expr.calls : Expr → Nat
  | .defaultParameter _ value _ => value.calls
  | .typedDefaultParameter _ _ value _ => value.calls
  | .call callee arguments _ => 1 + callee.calls + Expr.callsIn arguments
  | .keywordArgument _ value _ => value.calls
  | .member object property _ => object.calls + property.calls
  | .subscript value index _ => value.calls + index.calls
  | .slice start stop step _ =>
    Expr.optionCalls start + Expr.optionCalls stop + Expr.optionCalls step
  | .binary left _ right _ => left.calls + right.calls
  | .not operand _ => operand.calls
  | .unary _ operand _ => operand.calls
  | .conditional test consequence alternative _ =>
    test.calls + consequence.calls + alternative.calls
  | .parenthesized inner _ => inner.calls
  | .lambda parameters body _ => Expr.callsIn parameters + body.calls
  | .sequence _ items _ => Expr.itemCalls items
  | .dictionary entries _ => Expr.callsIn entries
  | .pair key value _ => key.calls + value.calls
  | .reference .. | .typedParameter .. | .string .. | .number .. | .boolean .. | .null _ => 0

/-- The calls in expressions. -/
@[simp] def Expr.callsIn : List Expr → Nat
  | [] => 0
  | e :: es => e.calls + Expr.callsIn es

/-- The calls in an expression if there is one. -/
@[simp] def Expr.optionCalls : Option Expr → Nat
  | none => 0
  | some e => e.calls

/-- The calls in the items that are there. -/
@[simp] def Expr.itemCalls : List (Option Expr) → Nat
  | [] => 0
  | i :: is => Expr.optionCalls i + Expr.itemCalls is

end

mutual

/-- The calls in a statement. -/
@[simp] def Stmt.calls : Stmt → Nat
  | .expression value => value.calls
  | .assignment left right _ _ _ => left.calls + Expr.optionCalls right
  | .function _ parameters body _ _ _ => Expr.callsIn parameters + Stmt.callsIn body
  | .classDefinition _ body arguments _ _ =>
    Expr.callsIn (arguments.getD []) + Stmt.callsIn body
  | .conditional choices _ => Choice.callsIn choices
  | .forLoop left right body _ => left.calls + right.calls + Stmt.callsIn body
  | .whileLoop test body _ => test.calls + Stmt.callsIn body
  | .returning value _ => Expr.optionCalls value
  | .raising value _ => value.calls
  | .simple .. | .comment .. => 0

/-- The calls in statements. -/
@[simp] def Stmt.callsIn : List Stmt → Nat
  | [] => 0
  | s :: ss => s.calls + Stmt.callsIn ss

/-- The calls in choices. -/
@[simp] def Choice.callsIn : List Choice → Nat
  | [] => 0
  | c :: cs => c.calls + Choice.callsIn cs

/-- The calls in a choice. -/
@[simp] def Choice.calls : Choice → Nat
  | .mk test body => Expr.optionCalls test + Stmt.callsIn body

end

/-- The calls in a program. -/
def Program.calls (p : Program) : Nat :=
  Stmt.callsIn p.body

/-! ## Calls of a tree -/

/-- The operands of a chain that take part in two comparisons: all but the
first and the last. -/
def middles {α : Type} : List α → List α
  | _ :: _ :: b :: o :: rest => b :: middles (b :: o :: rest)
  | _ => []

/-- The calls of a node whose children have these. -/
def Kind.tally (k : Kind) (ns : List Nat) : Nat :=
  (if k = .call then 1 else 0) + ns.sum

/-- The calls of a node whose children have these, where an operand is
counted for every comparison it takes part in. -/
def Kind.weigh (k : Kind) (ns : List Nat) : Nat :=
  k.tally ns + if k = .comparisonOperator then (middles ns).sum else 0

namespace Cst

mutual

/-- The call nodes of a tree outside import statements. -/
def calls : Cst → Nat
  | leaf k _ _ => k.tally []
  | tree k cs _ => if k.isImport then 0 else k.tally (callsOf cs)

/-- The call nodes of trees. -/
def callsOf : List Cst → List Nat
  | [] => []
  | c :: cs => c.calls :: callsOf cs

end

mutual

/-- How often the calls of a tree are built. -/
def evaluations : Cst → Nat
  | leaf k _ _ => k.weigh []
  | tree k cs _ => if k.isImport then 0 else k.weigh (evaluationsOf cs)

/-- How often the calls of trees are built, extras left out. -/
def evaluationsOf : List Cst → List Nat
  | [] => []
  | c :: cs => if c.kind.isExtra then evaluationsOf cs else c.evaluations :: evaluationsOf cs

end

end Cst

/-! ## Slots -/

/-- A place of a node that one child can take. -/
inductive TreeSlot where
  /-- The place for a part of this kind. -/
  | part (kind : Kind)
  /-- The place with this number. -/
  | place (n : Nat)
  deriving DecidableEq, Repr

namespace Kind

/-- Punctuation, a keyword or an operator. -/
def isToken : Kind → Bool
  | token _ => true
  | _ => false

/-- The kinds of nodes that have no slots: tokens, and what is carried as
text. -/
def isAtomic : Kind → Bool
  | token _ | identifier | type | string | integer | float | trueLiteral | falseLiteral
  | noneLiteral | decorator | comment | lineContinuation | passStatement | breakStatement
  | continueStatement | keywordSeparator | positionalSeparator => true
  | _ => false

/-- The kinds of nodes that hold items between commas. -/
def isSequence : Kind → Bool
  | list | tuple | expressionList | patternList | tuplePattern | listPattern
  | expressionStatement => true
  | _ => false

/-- After the child, a node's children stand at the next place. Only in
sequences and slices can a place be left empty or be taken twice. -/
def separates (parent child : Kind) : Bool :=
  if parent = slice then child == token ":"
  else if parent.isSequence then child == token ","
  else true

/-- **The slot that a child takes** at a place of a node. Tokens and what
is carried as text take none, nor do clauses inside a clause. -/
def slot (parent : Kind) (n : Nat) (child : Kind) : Option TreeSlot :=
  if child.isToken || parent.isAtomic then none
  else match parent with
    | functionDefinition | classDefinition => some (.part child)
    | ifStatement | forStatement | whileStatement =>
      some (if child = block then .part child else .place n)
    | elifClause | elseClause =>
      if Branch.isClause child then none
      else some (if child = block then .part child else .place n)
    | assignment | augmentedAssignment =>
      if child = type then none else some (.place (min n 1))
    | lambda =>
      -- the keyword is of the same kind as the whole
      if child = lambda then none
      else some (if child = lambdaParameters then .part child else .place n)
    | decoratedDefinition => if child = decorator then none else some (.place 0)
    | _ => some (.place n)

/-- The slots that children take from the place `n` on. -/
def slots (parent : Kind) (n : Nat) : List Kind → List (Option TreeSlot)
  | [] => []
  | k :: ks => parent.slot n k :: parent.slots (if parent.separates k then n + 1 else n) ks

end Kind

/-- No two of the children take the same slot, and what takes none holds
no calls. -/
def Kind.FillsOnce (parent : Kind) (n : Nat) (xs : List Cst) : Prop :=
  (parent.slots n (xs.map Cst.kind)).reduceOption.Nodup ∧
    ∀ q ∈ xs.zip (parent.slots n (xs.map Cst.kind)), q.2 = none → q.1.calls = 0

instance (parent : Kind) (n : Nat) (xs : List Cst) : Decidable (parent.FillsOnce n xs) :=
  inferInstanceAs (Decidable (_ ∧ _))

namespace Kind.FillsOnce

variable {parent : Kind} {n : Nat} {x : Cst} {xs : List Cst}

/-- Without the first child the others fill their slots once. -/
theorem tail (h : parent.FillsOnce n (x :: xs)) :
    parent.FillsOnce (if parent.separates x.kind then n + 1 else n) xs := by
  obtain ⟨hnodup, hidle⟩ := h
  rw [List.map_cons, slots] at hnodup hidle
  refine ⟨?_, fun q hq => hidle q (List.mem_cons_of_mem _ hq)⟩
  cases hslot : parent.slot n x.kind with
  | none => simpa [hslot] using hnodup
  | some s => exact (List.nodup_cons.1 (by simpa [hslot] using hnodup)).2

theorem head_idle (h : parent.FillsOnce n (x :: xs)) (hx : parent.slot n x.kind = none) :
    x.calls = 0 :=
  h.2 (x, none) (by simp [slots, hx]) rfl

/-- The slot of the first child is taken by no later one. -/
theorem head_fresh {s : TreeSlot} (h : parent.FillsOnce n (x :: xs))
    (hx : parent.slot n x.kind = some s) :
    s ∉ (parent.slots (if parent.separates x.kind then n + 1 else n)
      (xs.map Cst.kind)).reduceOption := by
  have hnodup := h.1
  rw [List.map_cons, slots, hx, List.reduceOption_cons_of_some] at hnodup
  exact (List.nodup_cons.1 hnodup).1

/-- Where no child takes a slot, none holds a call. -/
theorem idle (h : parent.FillsOnce n xs) (hnone : ∀ n child, parent.slot n child = none) :
    ∀ x ∈ xs, x.calls = 0 := by
  induction xs generalizing n with
  | nil => simp
  | cons x xs ih => exact List.forall_mem_cons.2 ⟨h.head_idle (hnone _ _), ih h.tail⟩

end Kind.FillsOnce

theorem Kind.isAtomic_of_isExtra {k : Kind} (h : k.isExtra = true) : k.isAtomic = true := by
  cases k <;> first | rfl | cases h

namespace Cst

mutual

/-- **Every slot is filled at most once**, outside import statements. -/
def filledOnce : Cst → Bool
  | leaf .. => true
  | tree k cs _ =>
    k.isImport || decide (k.FillsOnce 0 (cs.filter (!·.kind.isExtra))) && allFilledOnce cs

/-- Every slot of the trees is filled at most once. -/
def allFilledOnce : List Cst → Bool
  | [] => true
  | c :: cs => c.filledOnce && allFilledOnce cs

end

mutual

/-- **No operand that takes part in two comparisons holds a call**,
outside import statements. -/
def comparesOnce : Cst → Bool
  | leaf .. => true
  | tree k cs _ => k.isImport || allCompareOnce cs &&
    (k != .comparisonOperator || (middles (cs.filter (!·.kind.isExtra))).all (·.calls == 0))

/-- In none of the trees an operand that takes part in two comparisons
holds a call. -/
def allCompareOnce : List Cst → Bool
  | [] => true
  | c :: cs => c.comparesOnce && allCompareOnce cs

end

end Cst

/-! ## Sums over children -/

section Sums

variable {α β : Type} {f g : α → Nat} {xs : List α}

theorem middles_map (h : α → β) (xs : List α) : middles (xs.map h) = (middles xs).map h := by
  fun_induction middles xs with
  | case1 a o b o' rest ih => simpa [middles] using ih
  | case2 xs hxs =>
    unfold middles
    split
    · rename_i heq
      obtain ⟨_, _, rfl, -, heq⟩ := List.map_eq_cons_iff.1 heq
      obtain ⟨_, _, rfl, -, heq⟩ := List.map_eq_cons_iff.1 heq
      obtain ⟨_, _, rfl, -, heq⟩ := List.map_eq_cons_iff.1 heq
      obtain ⟨_, _, rfl, -, heq⟩ := List.map_eq_cons_iff.1 heq
      exact absurd rfl (hxs _ _ _ _ _)
    · rfl

/-- The operands in the middle are some of the operands. -/
theorem middles_subset (xs : List α) : middles xs ⊆ xs := by
  fun_induction middles xs with
  | case1 a o b o' rest ih =>
    have hrest : b :: o' :: rest ⊆ a :: o :: b :: o' :: rest := by simp
    exact List.cons_subset.2 ⟨by simp, fun x hx => hrest (ih hx)⟩
  | case2 => exact List.nil_subset _

theorem sum_map_eq_zero_iff : (xs.map f).sum = 0 ↔ ∀ x ∈ xs, f x = 0 := by
  rw [List.sum_eq_zero_iff_forall_eq_nat, List.forall_mem_map]

/-- What counts as nothing may be left out of a sum. -/
theorem sum_map_filter {p : α → Bool} (h : ∀ x ∈ xs, p x = false → f x = 0) :
    ((xs.filter p).map f).sum = (xs.map f).sum := by
  induction xs with
  | nil => rfl
  | cons x xs ih =>
    have hxs := ih fun y hy => h y (List.mem_cons_of_mem _ hy)
    cases hp : p x with
    | true => simp [hp, hxs]
    | false => simp [hp, hxs, h x (List.mem_cons_self ..) hp]

/-- Sums of which one bounds the other term by term are equal only if all
terms are. -/
theorem sum_map_eq_iff (h : ∀ x ∈ xs, f x ≤ g x) :
    (xs.map g).sum = (xs.map f).sum ↔ ∀ x ∈ xs, g x = f x := by
  constructor
  · intro heq x hx
    by_contra hne
    have hlt : f x < g x := lt_of_le_of_ne (h x hx) fun hfg => hne hfg.symm
    exact absurd heq.symm (List.sum_lt_sum f g h ⟨x, hx, hlt⟩).ne
  · intro hall
    rw [List.map_congr_left hall]

end Sums

/-! ## Calls and how often they are built -/

namespace Cst

variable {k : Kind} {c : Cst} {cs : List Cst} {span : Option Span}

theorem callsOf_eq_map (cs : List Cst) : callsOf cs = cs.map calls := by
  induction cs with
  | nil => rfl
  | cons c cs ih => rw [callsOf, ih, List.map_cons]

theorem evaluationsOf_eq_map (cs : List Cst) :
    evaluationsOf cs = (cs.filter (!·.kind.isExtra)).map evaluations := by
  induction cs with
  | nil => rfl
  | cons c cs ih => cases hc : c.kind.isExtra <;> simp [evaluationsOf, hc, ih]

@[simp] theorem allFilledOnce_iff : allFilledOnce cs = true ↔ ∀ c ∈ cs, c.filledOnce = true := by
  induction cs with
  | nil => simp [allFilledOnce]
  | cons c cs ih => simp [allFilledOnce, ih]

@[simp] theorem allCompareOnce_iff :
    allCompareOnce cs = true ↔ ∀ c ∈ cs, c.comparesOnce = true := by
  induction cs with
  | nil => simp [allCompareOnce]
  | cons c cs ih => simp [allCompareOnce, ih]

/-- What the children of a node outside import statements have to be. -/
theorem filledOnce_tree (hk : k.isImport = false) :
    (tree k cs span).filledOnce = true ↔
      k.FillsOnce 0 (cs.filter (!·.kind.isExtra)) ∧ ∀ c ∈ cs, c.filledOnce = true := by
  simp [filledOnce, hk]

/-- A node counts the calls of its children, and itself if it is one. -/
theorem calls_tree (hk : k.isImport = false) :
    (tree k cs span).calls = k.tally (cs.map calls) := by
  rw [calls, callsOf_eq_map, if_neg (by simp [hk])]

/-- A node without its extras is weighed by what its children weigh. -/
theorem evaluations_tree (hk : k.isImport = false) : (tree k cs span).evaluations =
    k.weigh ((cs.filter (!·.kind.isExtra)).map evaluations) := by
  rw [evaluations, evaluationsOf_eq_map, if_neg (by simp [hk])]

/-- An import holds no calls that are counted. -/
theorem calls_of_isImport (hc : c.kind.isImport = true) : c.calls = 0 ∧ c.evaluations = 0 := by
  cases c with
  | leaf k text span =>
    have hk : k.isImport = true := hc
    cases k <;> simp_all [Kind.isImport, calls, evaluations, Kind.weigh, Kind.tally]
  | tree k cs span =>
    have hk : k.isImport = true := hc
    simp [calls, evaluations, hk]

/-- What holds no calls builds none. -/
theorem evaluations_eq_zero (h : c.calls = 0) : c.evaluations = 0 := by
  induction c using Cst.induction with
  | leaf k text span => simpa [evaluations, calls, Kind.weigh, middles] using h
  | tree k cs span ih =>
    cases hk : k.isImport with
    | true => exact (calls_of_isImport (c := tree k cs span) hk).2
    | false =>
      rw [calls_tree hk, Kind.tally, Nat.add_eq_zero_iff, sum_map_eq_zero_iff] at h
      have hzero : ∀ c ∈ cs.filter (!·.kind.isExtra), c.evaluations = 0 := fun c hc =>
        have hmem := (List.mem_filter.1 hc).1
        ih c hmem (h.2 c hmem)
      have hmiddles : ∀ c ∈ middles (cs.filter (!·.kind.isExtra)), c.evaluations = 0 :=
        fun c hc => hzero c (middles_subset _ hc)
      rw [evaluations_tree hk, Kind.weigh, Kind.tally, h.1, middles_map,
        sum_map_eq_zero_iff.2 hzero, sum_map_eq_zero_iff.2 hmiddles, ite_self]

/-- **A node without slots holds no calls.** -/
theorem calls_of_isAtomic (h : c.filledOnce = true) (hc : c.kind.isAtomic = true) :
    c.calls = 0 := by
  induction c using Cst.induction with
  | leaf k text span =>
    have hcall : k ≠ .call := by
      rintro rfl
      cases hc
    simp [calls, Kind.tally, hcall]
  | tree k cs span ih =>
    have hk : k.isAtomic = true := hc
    have himport : k.isImport = false := by
      cases k <;> first | rfl | cases hk
    have hcall : k ≠ .call := by
      rintro rfl
      cases hk
    obtain ⟨hfills, hcs⟩ := (filledOnce_tree himport).1 h
    have hzero : ∀ c ∈ cs, c.calls = 0 := by
      intro c hc
      cases hextra : c.kind.isExtra with
      | true => exact ih c hc (hcs c hc) (Kind.isAtomic_of_isExtra hextra)
      | false =>
        exact hfills.idle (fun _ _ => by simp [Kind.slot, hk]) c
          (List.mem_filter.2 ⟨hc, by simp [hextra]⟩)
    rw [calls_tree himport, Kind.tally, if_neg hcall, sum_map_eq_zero_iff.2 hzero]

/-- Extras hold no calls. -/
theorem sum_calls_filter (h : ∀ c ∈ cs, c.filledOnce = true) :
    ((cs.filter (!·.kind.isExtra)).map calls).sum = (cs.map calls).sum := by
  refine sum_map_filter fun c hc hextra => ?_
  exact calls_of_isAtomic (h c hc) (Kind.isAtomic_of_isExtra (by simpa using hextra))

/-- **No call is lost.** -/
theorem calls_le_evaluations (h : c.filledOnce = true) : c.calls ≤ c.evaluations := by
  induction c using Cst.induction with
  | leaf k text span => simp [calls, evaluations, Kind.weigh]
  | tree k cs span ih =>
    cases hk : k.isImport with
    | true => simp [calls, hk]
    | false =>
      have hcs := ((filledOnce_tree hk).1 h).2
      have hle : ((cs.filter (!·.kind.isExtra)).map calls).sum ≤
          ((cs.filter (!·.kind.isExtra)).map evaluations).sum :=
        List.sum_le_sum fun c hc =>
          have hmem := (List.mem_filter.1 hc).1
          ih c hmem (hcs c hmem)
      rw [sum_calls_filter hcs] at hle
      rw [calls_tree hk, evaluations_tree hk, Kind.weigh, Kind.tally, Kind.tally]
      omega

theorem evaluations_eq_zero_iff (h : c.filledOnce = true) : c.evaluations = 0 ↔ c.calls = 0 :=
  ⟨fun h' => Nat.le_zero.1 (h' ▸ calls_le_evaluations h), evaluations_eq_zero⟩

theorem sum_evaluations_eq_iff (h : ∀ c ∈ cs, c.filledOnce = true) :
    ((cs.filter (!·.kind.isExtra)).map evaluations).sum =
        ((cs.filter (!·.kind.isExtra)).map calls).sum ↔
      ∀ c ∈ cs, c.evaluations = c.calls := by
  rw [sum_map_eq_iff fun c hc => calls_le_evaluations (h c (List.mem_filter.1 hc).1)]
  constructor
  · intro hall c hc
    cases hextra : c.kind.isExtra with
    | true =>
      have hzero := calls_of_isAtomic (h c hc) (Kind.isAtomic_of_isExtra hextra)
      rw [hzero, evaluations_eq_zero hzero]
    | false => exact hall c (List.mem_filter.2 ⟨hc, by simp [hextra]⟩)
  · exact fun hall c hc => hall c (List.mem_filter.1 hc).1

/-- The operands in the middle build no calls exactly if they hold none. -/
theorem sum_middles_eq_zero_iff (h : ∀ c ∈ cs, c.filledOnce = true) :
    ((middles (cs.filter (!·.kind.isExtra))).map evaluations).sum = 0 ↔
      ∀ c ∈ middles (cs.filter (!·.kind.isExtra)), c.calls = 0 := by
  rw [sum_map_eq_zero_iff]
  refine forall₂_congr fun c hc => evaluations_eq_zero_iff (h c ?_)
  exact (List.mem_filter.1 (middles_subset _ hc)).1

/-- **Only the middle operands of a chain are built again.** -/
theorem evaluations_eq_calls_iff (h : c.filledOnce = true) :
    c.evaluations = c.calls ↔ c.comparesOnce = true := by
  induction c using Cst.induction with
  | leaf k text span => simp [calls, evaluations, comparesOnce, Kind.weigh, middles]
  | tree k cs span ih =>
    cases hk : k.isImport with
    | true => simp [calls, evaluations, comparesOnce, hk]
    | false =>
      have hcs := ((filledOnce_tree hk).1 h).2
      have hchildren := (sum_evaluations_eq_iff hcs).trans
        (forall₂_congr fun c hc => ih c hc (hcs c hc))
      rw [calls_tree hk, evaluations_tree hk, Kind.weigh, Kind.tally, Kind.tally,
        ← sum_calls_filter hcs, middles_map]
      simp only [comparesOnce, hk, Bool.false_or, Bool.and_eq_true, allCompareOnce_iff,
        Bool.or_eq_true, bne_iff_ne, List.all_eq_true, beq_iff_eq, ← hchildren]
      by_cases hchain : k = .comparisonOperator
      · -- no child builds fewer calls than it holds, so nothing may be added
        have hsum : ((cs.filter (!·.kind.isExtra)).map calls).sum ≤
            ((cs.filter (!·.kind.isExtra)).map evaluations).sum :=
          List.sum_le_sum fun c hc => calls_le_evaluations (hcs c (List.mem_filter.1 hc).1)
        rw [if_pos hchain, ← sum_middles_eq_zero_iff hcs]
        simp only [hchain, ne_eq, not_true_eq_false, false_or]
        omega
      · rw [if_neg hchain]
        simp only [hchain, ne_eq, not_false_eq_true, true_or, and_true]
        omega

end Cst

end Scribe
