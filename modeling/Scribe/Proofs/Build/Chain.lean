import Mathlib.Data.List.Forall2
import Mathlib.Data.List.Induction
import Scribe.Proofs.Build.Trimming

/-!
# Chains of comparisons

The children of a comparison are operands with operators between them. With
more than one operator they are a chain, which compares each two neighbours
and holds if all of them compare.

`Expr.Joins` says that an expression joins others with `&&`, grouped from the
left, and `Expr.holds` evaluates such an expression under an `Interpretation`
of operands and operators. `chain_conjoins` says that a chain builds the
conjunction of its comparisons, which evaluates as the chain reads, and that
a node whose children are no chain builds nothing.
-/

namespace Scribe

universe u

variable {α β γ δ : Type}

/-! ## Operands and operators -/

/-- Every second of a list, from the first on. -/
def everySecond : List α → List α
  | [] => []
  | [a] => [a]
  | a :: _ :: as => a :: everySecond as

/-- Each two neighbours of the first list, with the member of the second that
stands between them. -/
def adjacent (xs : List α) (os : List β) : List (α × β × α) :=
  xs.zip (os.zip xs.tail)

namespace Cst

/-- The operands of a comparison: every second kept child from the first on. -/
def operands (c : Cst) : List Cst :=
  everySecond c.kept

/-- The operators of a comparison: every second kept child from the second
on. -/
def operators (c : Cst) : List Cst :=
  everySecond c.kept.tail

/-- **The operands build these values**, inside the comparison. -/
def OperandsBuild (file : String) (c : Cst) (ctx : Context) (xs : List Expr) : Prop :=
  List.Forall₂ (fun d x =>
    ((d.part file).expression (ctx.entering c.kind "binary")).result = .ok x) c.operands xs

/-- **The operators are supported** and denote these. -/
def OperatorsDenote (c : Cst) (ops : List BinaryOp) : Prop :=
  List.Forall₂ (fun d op => BinaryOp.ofSpelling? d.kind.name = some op) c.operators ops

end Cst

theorem length_everySecond (as : List α) : (everySecond as).length = (as.length + 1) / 2 := by
  fun_induction everySecond as with
  | case1 => simp
  | case2 a => simp
  | case3 a b as ih =>
    simp only [List.length_cons, ih]
    omega

theorem everySecond_map (f : α → β) (as : List α) :
    everySecond (as.map f) = (everySecond as).map f := by
  fun_induction everySecond as with
  | case1 => rfl
  | case2 a => rfl
  | case3 a b as ih => simp only [List.map_cons, everySecond, ih]

/-- Operands and operators alternate, starting and ending with an operand,
exactly if there are an odd number of them, and more than one. -/
theorem alternates_iff (as : List α) :
    (everySecond as.tail ≠ [] ∧ (everySecond as).length = (everySecond as.tail).length + 1) ↔
      ¬ (as.length < 3 ∨ as.length % 2 = 0) := by
  rw [← List.length_pos_iff, length_everySecond, length_everySecond, List.length_tail]
  omega

theorem adjacent_cons_cons (x y : α) (xs : List α) (o : β) (os : List β) :
    adjacent (x :: y :: xs) (o :: os) = (x, o, y) :: adjacent (y :: xs) os :=
  rfl

/-- Neighbours are related if the members of the lists are. -/
theorem forall₂_adjacent {R : α → γ → Prop} {S : β → δ → Prop} {xs : List α} {ys : List γ}
    {os : List β} {ps : List δ} (hxs : List.Forall₂ R xs ys) (hos : List.Forall₂ S os ps) :
    List.Forall₂ (fun t t' => R t.1 t'.1 ∧ S t.2.1 t'.2.1 ∧ R t.2.2 t'.2.2)
      (adjacent xs os) (adjacent ys ps) := by
  induction hos generalizing xs ys with
  | nil => simp [adjacent]
  | cons ho hos ih =>
    rcases hxs with _ | ⟨hx, _ | ⟨hy, hxs⟩⟩
    · exact .nil
    · exact .nil
    · rw [adjacent_cons_cons, adjacent_cons_cons]
      exact .cons ⟨hx, ho, hy⟩ (ih (.cons hy hxs))

/-! ## What a conjunction says -/

/-- **A reading of operands and operators**: the values of the operands, which
values count as true, and which of them each operator relates. -/
structure Interpretation (V : Type u) where
  value : Expr → V
  truth : V → Bool
  relation : BinaryOp → V → V → Bool

/-- **The expression holds.** A conjunction holds if both sides do, and any
other operation if its operator relates the values of its operands. -/
def Expr.holds {V : Type u} (I : Interpretation V) : Expr → Bool
  | .binary left .and right _ => left.holds I && right.holds I
  | .binary left op right _ => I.relation op (I.value left) (I.value right)
  | e => I.truth (I.value e)

/-- **The operands compare** as the operator says. Only `&&` is no relation
between values: two operands joined by it compare if both hold. -/
def Interpretation.compares {V : Type u} (I : Interpretation V) (x : Expr) (op : BinaryOp)
    (y : Expr) : Bool :=
  match op with
  | .and => x.holds I && y.holds I
  | op => I.relation op (I.value x) (I.value y)

/-- The comparison of two operands, at a place. -/
def comparisonAt (loc : Option Location) (t : Expr × BinaryOp × Expr) : Expr :=
  .binary t.1 t.2.1 t.2.2 loc

/-- **The expression joins others with `&&`**, grouped from the left. -/
inductive Expr.Joins (loc : Option Location) : Expr → List Expr → Prop
  | single {e : Expr} : Joins loc e [e]
  | snoc {acc e : Expr} {es : List Expr} : Joins loc acc es →
      Joins loc (.binary acc .and e loc) (es ++ [e])

variable {V : Type u} {I : Interpretation V} {loc : Option Location}

theorem holds_comparisonAt (t : Expr × BinaryOp × Expr) :
    (comparisonAt loc t).holds I = I.compares t.1 t.2.1 t.2.2 := by
  obtain ⟨x, op, y⟩ := t
  cases op <;> rfl

/-- **A conjunction holds** if everything it joins does. -/
theorem Expr.Joins.holds_eq {e : Expr} {es : List Expr} (h : e.Joins loc es) :
    e.holds I = es.all (Expr.holds I) := by
  induction h with
  | single => simp
  | snoc _ ih => simp [Expr.holds, ih]

theorem buildEach_of_forall₂ {build : α → Traced β} {as : List α} {bs : List β}
    (h : List.Forall₂ (fun a b => (build a).result = .ok b) as bs) :
    (buildEach build as).result = .ok bs := by
  induction h with
  | nil => rfl
  | cons hb _ ih =>
    simp only [buildEach, Traced.bind_eq_ok, Traced.pure_eq_ok]
    exact ⟨_, hb, _, ih, rfl⟩

namespace Branch

variable {b : Branch} {c : Context}

theorem joins_conjunction (first : Expr) (rest : List Expr) :
    (conjunction loc first rest).Joins loc (first :: rest) := by
  induction rest using List.reverseRecOn with
  | nil => exact .single
  | append_singleton rest e ih =>
    rw [conjunction, List.foldl_concat, ← List.cons_append]
    exact .snoc ih

/-- What is compared are the neighbouring operands. -/
theorem comparisons_eq_adjacent (ps : List Part) :
    comparisons ps = adjacent (everySecond ps) (everySecond ps.tail) := by
  fun_induction comparisons ps with
  | case1 a o x rest ih =>
    obtain ⟨xs, hxs⟩ : ∃ xs, everySecond (x :: rest) = x :: xs := by
      cases rest <;> exact ⟨_, rfl⟩
    simp only [List.tail_cons, everySecond] at ih ⊢
    rw [ih, hxs, adjacent_cons_cons]
  | case2 ps hshort =>
    rcases ps with _ | ⟨a, _ | ⟨o, _ | ⟨x, rest⟩⟩⟩
    · rfl
    · rfl
    · rfl
    · exact absurd rfl (hshort a o x rest)

theorem comparison_of_parts {t : Part × Part × Part} {t' : Expr × BinaryOp × Expr}
    (h : (t.1.expression c).result = .ok t'.1 ∧
      BinaryOp.ofSpelling? t.2.1.kind.name = some t'.2.1 ∧
      (t.2.2.expression c).result = .ok t'.2.2) :
    (comparison loc c t).result = .ok (comparisonAt loc t') := by
  obtain ⟨hleft, hop, hright⟩ := h
  simp only [comparison, operator, hop, Traced.bind_eq_ok, Traced.pure_eq_ok]
  exact ⟨_, hleft, _, rfl, _, hright, rfl⟩

/-- **The comparisons of a chain are built** in order, and joined. -/
theorem exists_chain {xs : List Expr} {ops : List BinaryOp}
    (hops : everySecond b.parts.tail ≠ [])
    (hlength : (everySecond b.parts).length = (everySecond b.parts.tail).length + 1)
    (hx : List.Forall₂ (fun p x => (p.expression (c.entering b.kind "binary")).result = .ok x)
      (everySecond b.parts) xs)
    (hop : List.Forall₂ (fun p op => BinaryOp.ofSpelling? p.kind.name = some op)
      (everySecond b.parts.tail) ops) :
    ∃ e, (b.chain c).result = .ok e ∧
      e.Joins b.loc ((adjacent xs ops).map (comparisonAt b.loc)) := by
  have hbuild : (buildEach (comparison b.loc (c.entering b.kind "binary"))
      (comparisons b.parts)).result = .ok ((adjacent xs ops).map (comparisonAt b.loc)) := by
    rw [comparisons_eq_adjacent]
    refine buildEach_of_forall₂ ?_
    rw [List.forall₂_map_right_iff]
    exact (forall₂_adjacent hx hop).imp fun t t' => comparison_of_parts
  obtain ⟨first, rest, hes⟩ : ∃ first rest,
      (adjacent xs ops).map (comparisonAt b.loc) = first :: rest := by
    have hxs := hx.length_eq
    have hos := hop.length_eq
    have hpos := List.length_pos_iff.2 hops
    refine List.exists_cons_of_length_pos ?_
    rw [List.length_map, adjacent, List.length_zip, List.length_zip, List.length_tail]
    omega
  refine ⟨conjunction b.loc first rest, ?_, hes ▸ joins_conjunction first rest⟩
  simp only [chain, if_neg ((alternates_iff b.parts).1 ⟨hops, hlength⟩)]
  exact Traced.bind_eq_ok.2 ⟨first :: rest, hes ▸ hbuild, rfl⟩

/-- A node whose parts are no chain is refused. -/
theorem result_chain_of_not_alternates (h : everySecond b.parts.tail = [] ∨
    (everySecond b.parts).length ≠ (everySecond b.parts.tail).length + 1) :
    (b.chain c).result = .error (.unsupported b.kind.name c.parentName b.loc) := by
  have hshort : b.parts.length < 3 ∨ b.parts.length % 2 = 0 := by
    by_contra hlong
    obtain ⟨hops, hlength⟩ := (alternates_iff b.parts).2 hlong
    exact h.elim hops fun hne => hne hlength
  simp only [chain, if_pos hshort, result_refuse]

end Branch

theorem Cst.expression_of_comparison {file : String} {c : Cst} (hc : c.kind = .comparisonOperator)
    (ctx : Context) :
    ((c.part file).expression ctx).result = ((c.branch file).chain ctx).result := by
  have hkind : (c.branch file).kind = .comparisonOperator := hc
  rw [part_eq_branch]
  show ((c.branch file).expression ctx).result = _
  simp only [Branch.expression, hkind]

/-- **Chains are conjunctions.** A comparison with operators between its
operands builds the comparisons of its neighbouring operands, in order and
joined from the left, and under every interpretation this holds if and only
if all neighbours compare. A node that has no operator, or not one operand
more than it has operators, is refused. -/
theorem chain_conjoins (file : String) (c : Cst) (ctx : Context)
    (hc : c.kind = .comparisonOperator) :
    (∀ xs ops, c.operators ≠ [] → c.operands.length = c.operators.length + 1 →
      c.OperandsBuild file ctx xs → c.OperatorsDenote ops →
      ∃ e, ((c.part file).expression ctx).result = .ok e ∧
        e.Joins (c.location file) ((adjacent xs ops).map (comparisonAt (c.location file))) ∧
        ∀ (V : Type u) (I : Interpretation V), e.holds I = true ↔
          ∀ x op y, (x, op, y) ∈ adjacent xs ops → I.compares x op y = true) ∧
    (c.operators = [] ∨ c.operands.length ≠ c.operators.length + 1 →
      ((c.part file).expression ctx).result =
        .error (.unsupported c.kind.name ctx.parentName (c.location file))) := by
  have hoperands : everySecond (c.branch file).parts = c.operands.map (Cst.part file) :=
    everySecond_map ..
  have hoperators : everySecond (c.branch file).parts.tail = c.operators.map (Cst.part file) := by
    rw [Cst.operators, ← everySecond_map, List.map_tail]
    rfl
  rw [Cst.expression_of_comparison hc]
  constructor
  · intro xs ops hops hlength hx hop
    -- what is said of the tree, said of the parts that the rule reads
    have hops' : everySecond (c.branch file).parts.tail ≠ [] := by simpa [hoperators] using hops
    have hlength' : (everySecond (c.branch file).parts).length =
        (everySecond (c.branch file).parts.tail).length + 1 := by
      simpa [hoperands, hoperators] using hlength
    have hx' : List.Forall₂
        (fun p x => (p.expression (ctx.entering c.kind "binary")).result = .ok x)
        (everySecond (c.branch file).parts) xs := by
      rwa [hoperands, List.forall₂_map_left_iff]
    have hop' : List.Forall₂ (fun p op => BinaryOp.ofSpelling? p.kind.name = some op)
        (everySecond (c.branch file).parts.tail) ops := by
      rw [hoperators, List.forall₂_map_left_iff]
      simp only [Cst.kind_part]
      exact hop
    obtain ⟨e, he, hjoins⟩ := Branch.exists_chain hops' hlength' hx' hop'
    refine ⟨e, he, hjoins, fun V I => ?_⟩
    rw [hjoins.holds_eq, List.all_map, List.all_eq_true]
    simp only [Function.comp_apply, holds_comparisonAt, Prod.forall]
  · intro hnot
    exact Branch.result_chain_of_not_alternates (b := c.branch file)
      (by simpa [hoperands, hoperators] using hnot)

/-- The tree of `a < b is not` with more children behind the operator. -/
def identityTree (more : List Cst) : Cst :=
  .tree .comparisonOperator (.leaf .identifier "a" none :: .leaf (.token "<") "<" none ::
    .leaf .lineContinuation "\\" none :: .leaf .identifier "b" none ::
    .tree (.token "is not") [.leaf (.token "is") "is" none, .leaf (.token "not") "not" none]
      none :: more) none

/-- The tree of `a < b is not c`. -/
def identityChain : Cst :=
  identityTree [.leaf .identifier "c" none]

/-- What its operands build. -/
def identityOperands : List Expr :=
  ["a", "b", "c"].map fun name => .reference name none none

/-- With its last operand the chain has two comparisons, and without it the
chain is refused. -/
theorem chain_conjoins_identity :
    ((identityTree []).kind = .comparisonOperator ∧
      (identityTree []).operands.length ≠ (identityTree []).operators.length + 1 ∧
      (((identityTree []).part "m").expression .root).result =
        .error (.unsupported "comparison_operator" "file" none)) ∧
    identityChain.kind = .comparisonOperator ∧ identityChain.operators ≠ [] ∧
    identityChain.operands.length = identityChain.operators.length + 1 ∧
    identityChain.OperandsBuild "m" .root identityOperands ∧
    identityChain.OperatorsDenote [.lt, .ne] ∧
    ∃ e, ((identityChain.part "m").expression .root).result = .ok e ∧
      e.Joins none ((adjacent identityOperands [.lt, .ne]).map (comparisonAt none)) ∧
      ∀ (V : Type) (I : Interpretation V), e.holds I = true ↔
        ∀ x op y, (x, op, y) ∈ adjacent identityOperands [.lt, .ne] →
          I.compares x op y = true := by
  have hbroken : (identityTree []).operands.length ≠
      (identityTree []).operators.length + 1 := by decide
  have hops : identityChain.operators ≠ [] := by decide
  have hlength : identityChain.operands.length = identityChain.operators.length + 1 := by decide
  have hx : identityChain.OperandsBuild "m" .root identityOperands :=
    .cons rfl (.cons rfl (.cons rfl .nil))
  have hop : identityChain.OperatorsDenote [.lt, .ne] :=
    .cons (by decide) (.cons (by decide) .nil)
  exact ⟨⟨rfl, hbroken, (chain_conjoins.{0} "m" (identityTree []) .root rfl).2 (.inr hbroken)⟩,
    rfl, hops, hlength, hx, hop,
    (chain_conjoins "m" identityChain .root rfl).1 _ _ hops hlength hx hop⟩

end Scribe
