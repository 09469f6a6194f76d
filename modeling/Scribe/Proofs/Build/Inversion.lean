import Scribe.Build.Module

/-!
# What a rule built

One statement for each rule of the builder that builds an expression:
if the rule succeeded, these were its parts, this is what they built,
and this is the result. Later files read the rules only through these
statements.
-/

namespace Scribe

variable {α β : Type}

/-! ## Success of traced steps -/

namespace Traced

/-- Two steps succeed exactly if the second succeeds with what the first
makes. -/
theorem bind_eq_ok {x : Traced α} {f : α → Traced β} {b : β} :
    (x >>= f).result = .ok b ↔ ∃ a, x.result = .ok a ∧ (f a).result = .ok b := by
  rw [result_bind, Result.bind_eq_ok]

theorem pure_eq_ok {a b : α} : (Pure.pure a : Traced α).result = .ok b ↔ a = b := by
  rw [result_pure, Except.ok.injEq]

theorem map_eq_ok {f : α → β} {x : Traced α} {b : β} :
    (f <$> x).result = .ok b ↔ ∃ a, x.result = .ok a ∧ f a = b := by
  show (x >>= fun a => Pure.pure (f a)).result = .ok b ↔ _
  rw [bind_eq_ok]
  simp only [pure_eq_ok]

end Traced

@[simp] theorem Branch.result_refuse (b : Branch) (c : Context) :
    (b.refuse c : Traced α).result = .error (.unsupported b.kind.name c.parentName b.loc) :=
  rfl

@[simp] theorem Part.result_refuse (p : Part) (c : Context) :
    (p.refuse c : Traced α).result = .error (.unsupported p.kind.name c.parentName p.loc) :=
  rfl

/-- What every step of a list makes has a property that each step gives. -/
theorem forall_of_buildEach {P : β → Prop} {build : α → Traced β} {as : List α} {bs : List β}
    (h : (buildEach build as).result = .ok bs)
    (hP : ∀ a ∈ as, ∀ b, (build a).result = .ok b → P b) : ∀ b ∈ bs, P b := by
  induction as generalizing bs with
  | nil =>
    obtain rfl := Traced.pure_eq_ok.1 h
    simp
  | cons a as ih =>
    simp only [buildEach, Traced.bind_eq_ok, Traced.pure_eq_ok] at h
    obtain ⟨b, hb, bs, hbs, rfl⟩ := h
    refine List.forall_mem_cons.2 ⟨hP a (List.mem_cons_self ..) b hb, ?_⟩
    exact ih hbs fun a ha => hP a (List.mem_cons_of_mem _ ha)

namespace Branch

variable {b : Branch} {c : Context} {e : Expr}

theorem mem_of_mem_partsWithout {names : List String} {p : Part}
    (h : p ∈ b.partsWithout names) : p ∈ b.parts :=
  (List.mem_filter.1 h).1

/-! ## Parameters -/

/-- Only an identifier is read as a name, which is its text. -/
theorem name_eq_ok {p : Part} {name : String} (h : (p.name c).result = .ok name) :
    p.kind = .identifier ∧ name = p.text := by
  unfold Part.name at h
  split at h
  · exact ⟨‹_›, (Traced.pure_eq_ok.1 h).symm⟩
  · simp at h

/-- The kind tells what is collected, and the only part behind the stars is a
name. -/
theorem starred_eq_ok {r : String × Splat} (h : (b.starred c).result = .ok r) :
    ∃ splat p, b.kind.patternSplat? = some splat ∧ b.partsWithout ["*", "**"] = [p] ∧
      p.kind = .identifier := by
  unfold starred at h
  split at h
  · rename_i splat p hsplat hparts
    obtain ⟨name, hname, -⟩ := Traced.bind_eq_ok.1 h
    exact ⟨splat, p, hsplat, hparts, (name_eq_ok hname).1⟩
  · simp at h

/-- A starred parameter or target is a name with its splat. -/
theorem starredReference_eq_ok (h : (b.starredReference c).result = .ok e) :
    ∃ name splat, (b.starred c).result = .ok (name, splat) ∧
      e = .reference name (some splat) b.loc := by
  simp only [starredReference, Traced.bind_eq_ok, Traced.pure_eq_ok] at h
  obtain ⟨⟨name, splat⟩, hname, rfl⟩ := h
  exact ⟨name, splat, hname, rfl⟩

/-- A parameter with a default has two parts beside the equals sign. -/
theorem defaultParameter_eq_ok (h : (b.defaultParameter c).result = .ok e) :
    ∃ p d value, b.partsWithout ["="] = [p, d] ∧ p.kind = .identifier ∧
      (d.expression (c.within b.kind)).result = .ok value ∧
      e = .defaultParameter p.text value b.loc := by
  simp only [defaultParameter] at h
  split at h
  · rename_i p d hparts
    simp only [Traced.bind_eq_ok, Traced.pure_eq_ok] at h
    obtain ⟨value, hvalue, name, hname, rfl⟩ := h
    obtain ⟨hp, rfl⟩ := name_eq_ok hname
    exact ⟨p, d, value, hparts, hp, hvalue, rfl⟩
  · simp at h

/-- A typed parameter keeps the text of its type, behind a name or a starred
name. -/
theorem typedParameter_eq_ok (h : (b.typedParameter c).result = .ok e) :
    ∃ p t name splat, b.partsWithout [":"] = [p, t] ∧ t.kind = .type ∧
      (p.kind = .identifier ∨ ∃ r, (p.starred (c.within b.kind)).result = .ok r) ∧
      e = .typedParameter name t.text splat b.loc := by
  simp only [typedParameter] at h
  split at h
  · rename_i p t hparts
    split at h
    · simp at h
    · rename_i ht
      have htype := Decidable.not_not.1 ht
      split at h
      · simp only [Traced.bind_eq_ok, Traced.pure_eq_ok] at h
        obtain ⟨r, hr, rfl⟩ := h
        exact ⟨p, t, _, _, hparts, htype, .inr ⟨r, hr⟩, rfl⟩
      · simp only [Traced.bind_eq_ok, Traced.pure_eq_ok] at h
        obtain ⟨name, hname, rfl⟩ := h
        exact ⟨p, t, _, _, hparts, htype, .inl (name_eq_ok hname).1, rfl⟩
  · simp at h

/-- A typed parameter with a default has three parts, a name, a type and a
value. -/
theorem typedDefaultParameter_eq_ok (h : (b.typedDefaultParameter c).result = .ok e) :
    ∃ p t d value, b.partsWithout [":", "="] = [p, t, d] ∧ p.kind = .identifier ∧
      t.kind = .type ∧ (d.expression (c.within b.kind)).result = .ok value ∧
      e = .typedDefaultParameter p.text t.text value b.loc := by
  simp only [typedDefaultParameter] at h
  split at h
  · rename_i p t d hparts
    split at h
    · simp at h
    · rename_i ht
      simp only [Traced.bind_eq_ok, Traced.pure_eq_ok] at h
      obtain ⟨value, hvalue, name, hname, rfl⟩ := h
      obtain ⟨hp, rfl⟩ := name_eq_ok hname
      exact ⟨p, t, d, value, hparts, hp, Decidable.not_not.1 ht, hvalue, rfl⟩
  · simp at h

/-- A function without a name has a body. -/
theorem lambda_eq_ok (h : (b.lambda c).result = .ok e) :
    ∃ ps body, (lambdaParts (c.within b.kind) [] none b.parts).result = .ok (ps, some body) ∧
      e = .lambda ps body b.loc := by
  simp only [lambda, Traced.bind_eq_ok] at h
  obtain ⟨⟨ps, body⟩, hparts, h⟩ := h
  split at h
  · rename_i body hbody
    obtain rfl := Traced.pure_eq_ok.1 h
    exact ⟨ps, body, hbody ▸ hparts, rfl⟩
  · simp at h

/-! ## Sequences and dictionaries -/

/-- The items of a sequence are its elements. -/
theorem elements_eq_ok {kind : SequenceKind} (h : (b.elements kind c).result = .ok e) :
    ∃ is, (b.items c Part.element).result = .ok is ∧ e = .sequence kind is b.loc := by
  simp only [elements, Traced.bind_eq_ok, Traced.pure_eq_ok] at h
  obtain ⟨is, his, rfl⟩ := h
  exact ⟨is, his, rfl⟩

/-- The items of a target sequence are targets. -/
theorem targets_eq_ok {kind : SequenceKind} (h : (b.targets kind c).result = .ok e) :
    ∃ is, (b.items c Part.target).result = .ok is ∧ e = .sequence kind is b.loc := by
  simp only [targets, Traced.bind_eq_ok, Traced.pure_eq_ok] at h
  obtain ⟨is, his, rfl⟩ := h
  exact ⟨is, his, rfl⟩

/-- Every entry comes from a pair or from a spread dictionary. -/
theorem dictionary_eq_ok (h : (b.dictionary c).result = .ok e) :
    ∃ es, e = .dictionary es b.loc ∧ ∀ x ∈ es, ∃ p ∈ b.parts,
      (p.entry (c.within b.kind)).result = .ok x ∨
      p.kind = .dictionarySplat ∧ (p.argument (c.within b.kind)).result = .ok x := by
  simp only [dictionary, Traced.bind_eq_ok, Traced.pure_eq_ok] at h
  obtain ⟨es, hes, rfl⟩ := h
  refine ⟨es, rfl, forall_of_buildEach hes fun p hp x hx => ⟨p, mem_of_mem_partsWithout hp, ?_⟩⟩
  split at hx
  · exact .inl hx
  · exact .inr ⟨‹_›, hx⟩
  · simp at hx

/-- A pair has two parts beside the colon, both of them values. -/
theorem pair_eq_ok (h : (b.pair c).result = .ok e) :
    ∃ k v key value, b.partsWithout [":"] = [k, v] ∧
      (k.expression (c.within b.kind)).result = .ok key ∧
      (v.expression (c.within b.kind)).result = .ok value ∧ e = .pair key value b.loc := by
  simp only [pair] at h
  split at h
  · rename_i k v hparts
    simp only [Traced.bind_eq_ok, Traced.pure_eq_ok] at h
    obtain ⟨key, hkey, value, hvalue, rfl⟩ := h
    exact ⟨k, v, key, value, hparts, hkey, hvalue, rfl⟩
  · simp at h

/-! ## Access and calls -/

/-- A property is a name with the place of its own part. -/
theorem memberAccess_eq_ok (h : (b.memberAccess c).result = .ok e) :
    ∃ o p object, b.partsWithout ["."] = [o, p] ∧ p.kind = .identifier ∧
      (o.expression (c.within b.kind)).result = .ok object ∧
      e = .member object (.reference p.text none p.loc) b.loc := by
  simp only [memberAccess] at h
  split at h
  · rename_i o p hparts
    split at h
    · simp at h
    · rename_i hp
      simp only [Traced.bind_eq_ok, Traced.pure_eq_ok] at h
      obtain ⟨object, hobject, rfl⟩ := h
      exact ⟨o, p, object, hparts, Decidable.not_not.1 hp, hobject, rfl⟩
  · simp at h

/-- A call has two parts, the callee and a list of arguments. -/
theorem call_eq_ok (h : (b.call c).result = .ok e) :
    ∃ f as callee arguments, b.parts = [f, as] ∧ as.kind = .argumentList ∧
      (f.expression (c.within b.kind)).result = .ok callee ∧
      (as.arguments (c.within b.kind)).result = .ok arguments ∧
      e = .call callee arguments b.loc := by
  simp only [call] at h
  split at h
  · rename_i _ _ f as hparts
    split at h
    · simp at h
    · rename_i has
      simp only [Traced.bind_eq_ok, Traced.pure_eq_ok] at h
      obtain ⟨callee, hcallee, arguments, harguments, rfl⟩ := h
      exact ⟨f, as, callee, arguments, hparts, Decidable.not_not.1 has, hcallee, harguments, rfl⟩
  · simp at h
  · simp at h

/-- An argument that is passed by name keeps the text of the name. -/
theorem keywordArgument_eq_ok (h : (b.keywordArgument c).result = .ok e) :
    ∃ n v value, b.partsWithout ["="] = [n, v] ∧ n.kind = .identifier ∧
      (v.expression (c.within b.kind)).result = .ok value ∧
      e = .keywordArgument n.text value b.loc := by
  simp only [keywordArgument] at h
  split at h
  · rename_i n v hparts
    split at h
    · simp at h
    · rename_i hn
      simp only [Traced.bind_eq_ok, Traced.pure_eq_ok] at h
      obtain ⟨value, hvalue, rfl⟩ := h
      exact ⟨n, v, value, hparts, Decidable.not_not.1 hn, hvalue, rfl⟩
  · simp at h

/-- Behind one star stands a list, behind two a dictionary, both of them a
name. -/
theorem splat_eq_ok (h : (b.splat c).result = .ok e) :
    ∃ star p s, b.parts = [star, p] ∧ starSplat? star = some s ∧ p.kind = .identifier ∧
      e = .reference p.text (some s) b.loc := by
  simp only [splat] at h
  split at h
  · rename_i star p hparts
    split at h
    · rename_i s hs
      split at h
      · simp at h
      · rename_i hp
        exact ⟨star, p, s, hparts, hs, Decidable.not_not.1 hp, (Traced.pure_eq_ok.1 h).symm⟩
    · simp at h
  · simp at h

/-- A slice has the bounds that its parts fill. -/
theorem bounds_eq_ok (h : (b.bounds c).result = .ok e) :
    ∃ bs, (buildBounds (c.within b.kind) 0 ⟨none, none, none⟩ b.parts).result = .ok bs ∧
      e = .slice bs.start bs.stop bs.step b.loc := by
  simp only [bounds, Traced.bind_eq_ok, Traced.pure_eq_ok] at h
  obtain ⟨bs, hbs, rfl⟩ := h
  exact ⟨bs, hbs, rfl⟩

/-- The index of a subscript: the only one, or a tuple of several. -/
def indexOf : List Expr → Expr
  | [i] => i
  | is => .sequence .tuple (is.map some) none

/-- **A subscript has an index**, and a tuple of them if there are several. -/
theorem subscript_eq_ok (h : (b.subscript c).result = .ok e) :
    ∃ v rest value indices, b.parts = v :: rest ∧
      (v.expression (c.within b.kind)).result = .ok value ∧
      (buildEach (index · (c.within b.kind))
        (rest.filter (!·.isTokenOf ["[", "]", ","]))).result = .ok indices ∧
      indices ≠ [] ∧ e = .subscript value (indexOf indices) b.loc := by
  simp only [subscript] at h
  split at h
  · cases h
  · rename_i v rest hparts
    obtain ⟨value, hvalue, h⟩ := Traced.bind_eq_ok.1 h
    obtain ⟨indices, hindices, h⟩ := Traced.bind_eq_ok.1 h
    refine ⟨v, rest, value, indices, hparts, hvalue, hindices, ?_⟩
    split at h
    · simp at h
    · exact ⟨by simp, (Traced.pure_eq_ok.1 h).symm⟩
    · rename_i hone hnil
      refine ⟨hone, (Traced.pure_eq_ok.1 h).symm.trans ?_⟩
      unfold indexOf
      split
      · exact absurd rfl (hnil _)
      · rfl

/-! ## Operators -/

/-- The operator is the one that its kind spells. -/
theorem operator_eq_ok {p : Part} {op : BinaryOp} (h : (operator p c).result = .ok op) :
    BinaryOp.ofSpelling? p.kind.name = some op := by
  unfold operator at h
  split at h
  · rename_i hop
    rw [hop, Traced.pure_eq_ok.1 h]
  · simp at h

/-- An operation has three parts, the operator in the middle. -/
theorem binary_eq_ok (h : (b.binary c).result = .ok e) :
    ∃ l o r left op right, b.parts = [l, o, r] ∧
      (l.expression (c.entering b.kind "binary")).result = .ok left ∧
      BinaryOp.ofSpelling? o.kind.name = some op ∧
      (r.expression (c.entering b.kind "binary")).result = .ok right ∧
      e = .binary left op right b.loc := by
  simp only [binary] at h
  split at h
  · rename_i l o r hparts
    simp only [Traced.bind_eq_ok, Traced.pure_eq_ok] at h
    obtain ⟨left, hleft, op, hop, right, hright, rfl⟩ := h
    exact ⟨l, o, r, left, op, right, hparts, hleft, operator_eq_ok hop, hright, rfl⟩
  · simp at h

/-- A comparison in a chain is an operation on two neighbours. -/
theorem comparison_eq_ok {loc : Option Location} {t : Part × Part × Part}
    (h : (comparison loc c t).result = .ok e) :
    ∃ left op right, (t.1.expression c).result = .ok left ∧
      BinaryOp.ofSpelling? t.2.1.kind.name = some op ∧
      (t.2.2.expression c).result = .ok right ∧ e = .binary left op right loc := by
  simp only [comparison, Traced.bind_eq_ok, Traced.pure_eq_ok] at h
  obtain ⟨left, hleft, op, hop, right, hright, rfl⟩ := h
  exact ⟨left, op, right, hleft, operator_eq_ok hop, hright, rfl⟩

/-- The comparisons of a chain are put together from its parts. -/
theorem mem_of_mem_comparisons {ps : List Part} {t : Part × Part × Part}
    (h : t ∈ comparisons ps) : t.1 ∈ ps ∧ t.2.1 ∈ ps ∧ t.2.2 ∈ ps := by
  fun_induction comparisons ps with
  | case1 a o x rest ih =>
    rcases List.mem_cons.1 h with rfl | h
    · simp
    · have hsub : x :: rest ⊆ a :: o :: x :: rest := by simp
      obtain ⟨hleft, hop, hright⟩ := ih h
      exact ⟨hsub hleft, hsub hop, hsub hright⟩
  | case2 => cases h

/-- **A chain has an odd number of parts**, three at least, and is the
conjunction of its comparisons. -/
theorem chain_eq_ok (h : (b.chain c).result = .ok e) :
    ∃ first rest, 3 ≤ b.parts.length ∧ b.parts.length % 2 = 1 ∧
      (buildEach (comparison b.loc (c.entering b.kind "binary"))
        (comparisons b.parts)).result = .ok (first :: rest) ∧
      e = conjunction b.loc first rest := by
  simp only [chain] at h
  split at h
  · simp at h
  · rename_i hlength
    obtain ⟨es, hes, h⟩ := Traced.bind_eq_ok.1 h
    split at h
    · exact ⟨_, _, by omega, by omega, hes, (Traced.pure_eq_ok.1 h).symm⟩
    · simp at h

theorem negation_eq_ok (h : (b.negation c).result = .ok e) :
    ∃ p v, b.partsWithout ["not"] = [p] ∧ (p.expression (c.within b.kind)).result = .ok v ∧
      e = .not v b.loc := by
  simp only [negation] at h
  split at h
  · rename_i p hparts
    simp only [Traced.bind_eq_ok, Traced.pure_eq_ok] at h
    obtain ⟨v, hv, rfl⟩ := h
    exact ⟨p, v, hparts, hv, rfl⟩
  · simp at h

theorem unary_eq_ok (h : (b.unary c).result = .ok e) :
    ∃ o p op v, b.parts = [o, p] ∧ UnaryOp.ofSpelling? o.kind.name = some op ∧
      (p.expression (c.within b.kind)).result = .ok v ∧ e = .unary op v b.loc := by
  simp only [unary] at h
  split at h
  · rename_i o p hparts
    split at h
    · simp at h
    · rename_i op hop
      simp only [Traced.bind_eq_ok, Traced.pure_eq_ok] at h
      obtain ⟨v, hv, rfl⟩ := h
      exact ⟨o, p, op, v, hparts, hop, hv, rfl⟩
  · simp at h

/-- The test stands in the middle of the parts and in front of the values that
are built. -/
theorem conditional_eq_ok (h : (b.conditional c).result = .ok e) :
    ∃ x t y vx vt vy, b.partsWithout ["if", "else"] = [x, t, y] ∧
      (x.expression (c.within b.kind)).result = .ok vx ∧
      (t.expression (c.within b.kind)).result = .ok vt ∧
      (y.expression (c.within b.kind)).result = .ok vy ∧ e = .conditional vt vx vy b.loc := by
  simp only [conditional] at h
  split at h
  · rename_i x t y hparts
    simp only [Traced.bind_eq_ok, Traced.pure_eq_ok] at h
    obtain ⟨vx, hx, vt, ht, vy, hy, rfl⟩ := h
    exact ⟨x, t, y, vx, vt, vy, hparts, hx, ht, hy, rfl⟩
  · simp at h

theorem parenthesized_eq_ok (h : (b.parenthesized c).result = .ok e) :
    ∃ p v, b.partsWithout ["(", ")"] = [p] ∧ (p.expression (c.within b.kind)).result = .ok v ∧
      e = .parenthesized v b.loc := by
  simp only [parenthesized] at h
  split at h
  · rename_i p hparts
    simp only [Traced.bind_eq_ok, Traced.pure_eq_ok] at h
    obtain ⟨v, hv, rfl⟩ := h
    exact ⟨p, v, hparts, hv, rfl⟩
  · simp at h

/-- A literal keeps its text. -/
theorem string_eq_ok (h : b.string.result = .ok e) : e = .string b.text b.loc := by
  simp only [string] at h
  split at h
  · cases h
  · exact (Traced.pure_eq_ok.1 h).symm

/-! ## The only rule that builds string literals -/

/-- A conjunction is an operation like the first of its comparisons. -/
theorem kind_conjunction {loc : Option Location} {rest : List Expr}
    (he : e.kind = .binaryOperator) : (conjunction loc e rest).kind = .binaryOperator := by
  unfold conjunction
  induction rest generalizing e with
  | nil => exact he
  | cons x rest ih => exact ih rfl

theorem kind_chain (h : (b.chain c).result = .ok e) : e.kind = .binaryOperator := by
  obtain ⟨first, rest, -, -, hes, rfl⟩ := chain_eq_ok h
  have hall : ∀ e ∈ first :: rest, e.kind = .binaryOperator := by
    refine forall_of_buildEach hes fun t _ e he => ?_
    obtain ⟨_, _, _, -, -, -, rfl⟩ := comparison_eq_ok he
    rfl
  exact kind_conjunction (hall first (List.mem_cons_self ..))

/-- **Only a string literal is built as one**, with its own text. -/
theorem expression_eq_string {text : String} {loc : Option Location}
    (h : (b.expression c).result = .ok (.string text loc)) :
    b.kind = .string ∧ text = b.text := by
  simp only [expression] at h
  split at h
  · cases h
  · obtain ⟨_, _, _, -, -, -, ⟨⟩⟩ := memberAccess_eq_ok h
  · obtain ⟨_, _, _, _, -, -, -, -, ⟨⟩⟩ := call_eq_ok h
  · obtain ⟨_, _, _, _, -, -, -, -, ⟨⟩⟩ := subscript_eq_ok h
  · obtain ⟨_, _, _, _, _, _, -, -, -, -, ⟨⟩⟩ := binary_eq_ok h
  · obtain ⟨_, _, _, _, _, _, -, -, -, -, ⟨⟩⟩ := binary_eq_ok h
  · cases kind_chain h
  · obtain ⟨_, _, -, -, ⟨⟩⟩ := negation_eq_ok h
  · obtain ⟨_, _, _, _, -, -, -, ⟨⟩⟩ := unary_eq_ok h
  · obtain ⟨_, _, _, _, _, _, -, -, -, -, ⟨⟩⟩ := conditional_eq_ok h
  · obtain ⟨_, _, -, -, ⟨⟩⟩ := parenthesized_eq_ok h
  · obtain ⟨_, _, -, ⟨⟩⟩ := lambda_eq_ok h
  · obtain ⟨rfl, -⟩ := Expr.string.inj (string_eq_ok h)
    exact ⟨‹_›, rfl⟩
  · cases h
  · cases h
  · cases h
  · cases h
  · cases h
  · obtain ⟨_, -, ⟨⟩⟩ := elements_eq_ok h
  · obtain ⟨_, -, ⟨⟩⟩ := elements_eq_ok h
  · obtain ⟨_, -, ⟨⟩⟩ := elements_eq_ok h
  · obtain ⟨_, ⟨⟩, -⟩ := dictionary_eq_ok h
  · simp at h

end Branch

/-! ## Trees as parts -/

namespace Cst

@[simp] theorem kind_part {file : String} (c : Cst) : (c.part file).kind = c.kind := by
  cases c <;> rfl

/-- Trees become parts one by one. -/
theorem partsOf_eq_map (file : String) (cs : List Cst) : partsOf file cs = cs.map (part file) := by
  induction cs with
  | nil => rfl
  | cons c cs ih => rw [partsOf, ih, List.map_cons]

theorem mem_partsOf {file : String} {cs : List Cst} {p : Part} (h : p ∈ partsOf file cs) :
    ∃ c ∈ cs, c.part file = p :=
  List.mem_map.1 (partsOf_eq_map file cs ▸ h)

theorem filter_partsOf (file : String) (cs : List Cst) :
    (partsOf file cs).filter (!·.kind.isExtra) =
      (cs.filter (!·.kind.isExtra)).map (part file) := by
  rw [partsOf_eq_map, List.filter_map]
  simp only [Function.comp_def, kind_part]

/-- The children that become parts: all but the extras. -/
def kept : Cst → List Cst
  | leaf .. => []
  | tree _ cs _ => cs.filter (!·.kind.isExtra)

/-- The tree as the rules for its kind read it. -/
def branch (file : String) (c : Cst) : Branch where
  kind := c.kind
  text := c.text
  loc := c.location file
  parts := c.kept.map (part file)

/-- **A tree is built from its kept children.** -/
theorem part_eq_branch (file : String) (c : Cst) : c.part file = (c.branch file).part := by
  cases c with
  | leaf kind text span => rfl
  | tree kind cs span =>
    rw [part, filter_partsOf]
    rfl

end Cst

end Scribe
