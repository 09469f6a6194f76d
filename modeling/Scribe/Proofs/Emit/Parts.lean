import Scribe.Proofs.Emit.Signature
import Scribe.Proofs.Syntax.Induction

/-!
# Parts of expressions

`Expr.children` lists the parts of an expression, and `Expr.Inside` says
what stands inside it at any depth. The few parts that are not written
hold no literal (`Expr.LacksLiteral`).

The other lemmas invert success: an expression that was written has parts
that were written, and its text holds theirs.
-/

namespace Scribe

open Text

/-! ## What stands inside an expression -/

/-- The parts of an expression. -/
def Expr.children : Expr → List Expr
  | .defaultParameter _ value _ => [value]
  | .typedDefaultParameter _ _ value _ => [value]
  | .call callee arguments _ => callee :: arguments
  | .keywordArgument _ value _ => [value]
  | .member object property _ => [object, property]
  | .subscript value index _ => [value, index]
  | .slice start stop step _ => start.toList ++ stop.toList ++ step.toList
  | .binary left _ right _ => [left, right]
  | .not operand _ => [operand]
  | .unary _ operand _ => [operand]
  | .conditional test consequence alternative _ => [test, consequence, alternative]
  | .parenthesized inner _ => [inner]
  | .lambda parameters body _ => parameters ++ [body]
  | .sequence _ items _ => items.filterMap id
  | .dictionary entries _ => entries
  | .pair key value _ => [key, value]
  | _ => []

/-- **Induction over the children.** -/
@[elab_as_elim]
theorem Expr.induction_children {motive : Expr → Prop}
    (step : ∀ e, (∀ c ∈ e.children, motive c) → motive e) (e : Expr) : motive e := by
  induction e using Expr.induction <;> refine step _ ?_ <;> clear step <;>
    simp_all [Expr.children, or_imp]

/-- **`x` stands inside `e`**: it is `e`, or inside one of its parts. -/
inductive Expr.Inside (x : Expr) : Expr → Prop
  | refl : Expr.Inside x x
  | child {c e : Expr} : c ∈ e.children → Expr.Inside x c → Expr.Inside x e

/-- No string literal stands inside the expression. -/
def Expr.LacksLiteral (e : Expr) : Prop :=
  ∀ text loc, ¬ Expr.Inside (.string text loc) e

/-- A property of everything inside an expression is shown for itself and for
what stands inside its children. -/
theorem forall_inside {P : Expr → Prop} {e : Expr} (hself : P e)
    (h : ∀ c ∈ e.children, ∀ x, Expr.Inside x c → P x) : ∀ x, Expr.Inside x e → P x := by
  intro x hin
  cases hin with
  | refl => exact hself
  | child hc hin => exact h _ hc x hin

/-- A literal stands inside a child unless it is the expression itself. -/
theorem lacksLiteral_of_children {e : Expr} (hself : ∀ text loc, .string text loc ≠ e)
    (h : ∀ c ∈ e.children, c.LacksLiteral) : e.LacksLiteral := by
  have hne : ∀ x, Expr.Inside x e → ∀ text loc, .string text loc ≠ x := by
    refine forall_inside hself fun c hc x hin text loc heq => ?_
    subst heq
    exact h c hc text loc hin
  exact fun text loc hin => hne _ hin text loc rfl

theorem lacksLiteral_reference (name : String) (splat : Option Splat) (loc : Option Location) :
    (Expr.reference name splat loc).LacksLiteral :=
  lacksLiteral_of_children nofun nofun

theorem lacksLiteral_typedParameter (name type : String) (splat : Option Splat)
    (loc : Option Location) : (Expr.typedParameter name type splat loc).LacksLiteral :=
  lacksLiteral_of_children nofun nofun

/-- A call of `super` without arguments holds no literal. -/
theorem lacksLiteral_superCall {e : Expr} (h : e.isSuperCall = true) : e.LacksLiteral := by
  unfold Expr.isSuperCall at h
  split at h
  · refine lacksLiteral_of_children nofun fun c hc => ?_
    obtain rfl := List.mem_singleton.1 hc
    exact lacksLiteral_reference _ _ _
  · cases h

/-- The constructor of `super` holds no literal. -/
theorem lacksLiteral_superConstructor {e : Expr} (h : e.isSuperConstructor = true) :
    e.LacksLiteral := by
  unfold Expr.isSuperConstructor at h
  split at h
  · rename_i object name _ _ _
    have hsuper : object.isSuperCall = true := (Bool.and_eq_true_iff.1 h).1
    refine lacksLiteral_of_children nofun fun c hc => ?_
    rcases List.mem_cons.1 hc with rfl | hc
    · exact lacksLiteral_superCall hsuper
    · obtain rfl := List.mem_singleton.1 hc
      exact lacksLiteral_reference _ _ _
  · cases h

/-! ## Lists of parts -/

variable {s : Scope}

/-- An expression of a list has a written form, beside it. -/
theorem emitAll_mem {es : List Expr} {ts : List String} {e : Expr}
    (h : Expr.emitAll s es = .ok ts) (he : e ∈ es) :
    ∃ t, e.emit s = .ok t ∧ (e, t) ∈ es.zip ts := by
  induction es generalizing ts with
  | nil => cases he
  | cons a es ih =>
    simp only [Expr.emitAll, Result.bind_eq_ok, Result.pure_eq_ok] at h
    obtain ⟨t, ht, ts, hts, rfl⟩ := h
    rcases List.mem_cons.1 he with rfl | he
    · exact ⟨t, ht, List.mem_cons_self ..⟩
    · obtain ⟨u, hu, hmem⟩ := ih hts he
      exact ⟨u, hu, List.mem_cons_of_mem _ hmem⟩

/-- An item that is there has a written form among the texts. -/
theorem emitItems_mem {is : List (Option Expr)} {ts : List String} {e : Expr}
    (h : Expr.emitItems s is = .ok ts) (he : some e ∈ is) : ∃ t ∈ ts, e.emit s = .ok t := by
  induction is generalizing ts with
  | nil => cases he
  | cons i is ih =>
    simp only [Expr.emitItems, Result.bind_eq_ok, Result.pure_eq_ok] at h
    obtain ⟨t, ht, ts, hts, rfl⟩ := h
    rcases List.mem_cons.1 he with rfl | he
    · simp only [Expr.emitOption, Result.bind_eq_ok, Result.pure_eq_ok] at ht
      obtain ⟨u, hu, rfl⟩ := ht
      exact ⟨u, List.mem_cons_self .., hu⟩
    · obtain ⟨u, hu, heu⟩ := ih hts he
      exact ⟨u, List.mem_cons_of_mem _ hu, heu⟩

theorem emitOption_mem {o : Option Expr} {r : Option String} {e : Expr}
    (h : Expr.emitOption s o = .ok r) (he : e ∈ o) : ∃ t, r = some t ∧ e.emit s = .ok t := by
  obtain rfl := Option.mem_def.1 he
  simp only [Expr.emitOption, Result.bind_eq_ok, Result.pure_eq_ok] at h
  obtain ⟨t, ht, rfl⟩ := h
  exact ⟨t, rfl, ht⟩

/-- A written form of a list is that of one of the expressions. -/
theorem exists_of_mem_emitAll {es : List Expr} {ts : List String} {t : String}
    (h : Expr.emitAll s es = .ok ts) (ht : t ∈ ts) : ∃ e ∈ es, e.emit s = .ok t := by
  induction es generalizing ts with
  | nil =>
    obtain rfl := Except.ok.inj h
    cases ht
  | cons a es ih =>
    simp only [Expr.emitAll, Result.bind_eq_ok, Result.pure_eq_ok] at h
    obtain ⟨u, hu, us, hus, rfl⟩ := h
    rcases List.mem_cons.1 ht with rfl | ht
    · exact ⟨a, List.mem_cons_self .., hu⟩
    · obtain ⟨e, he, het⟩ := ih hus ht
      exact ⟨e, List.mem_cons_of_mem _ he, het⟩

theorem exists_of_mem_emitOption {o : Option Expr} {r : Option String} {t : String}
    (h : Expr.emitOption s o = .ok r) (ht : t ∈ r) : ∃ e ∈ o, e.emit s = .ok t := by
  cases o with
  | none =>
    obtain rfl := Except.ok.inj h
    cases ht
  | some e =>
    simp only [Expr.emitOption, Result.bind_eq_ok, Result.pure_eq_ok] at h
    obtain ⟨u, hu, rfl⟩ := h
    obtain rfl := Option.some.inj ht
    exact ⟨e, rfl, hu⟩

/-- An item that is missing has an empty text. -/
theorem exists_of_mem_emitItems {is : List (Option Expr)} {ts : List String} {t : String}
    (h : Expr.emitItems s is = .ok ts) (ht : t ∈ ts) :
    t = "" ∨ ∃ e, some e ∈ is ∧ e.emit s = .ok t := by
  induction is generalizing ts with
  | nil =>
    obtain rfl := Except.ok.inj h
    cases ht
  | cons i is ih =>
    simp only [Expr.emitItems, Result.bind_eq_ok, Result.pure_eq_ok] at h
    obtain ⟨o, ho, us, hus, rfl⟩ := h
    rcases List.mem_cons.1 ht with rfl | ht
    · cases o with
      | none => exact .inl rfl
      | some u =>
        obtain ⟨e, he, heu⟩ := exists_of_mem_emitOption ho rfl
        exact .inr ⟨e, Option.mem_def.1 he ▸ List.mem_cons_self .., heu⟩
    · refine (ih hus ht).imp_right fun ⟨e, he, het⟩ => ?_
      exact ⟨e, List.mem_cons_of_mem _ he, het⟩

/-- The text of an argument occurs in the list of arguments. -/
theorem occurs_argumentList {arguments : List (Expr × String)} {a : Expr} {t : String}
    (h : (a, t) ∈ arguments) : ∃ u ∈ argumentList arguments, Occurs t u := by
  rw [argumentList]
  by_cases ha : a.isNamedArgument = true
  · have hnamed : t ∈ (arguments.filter (·.1.isNamedArgument)).map (·.2) :=
      List.mem_map.2 ⟨(a, t), List.mem_filter.2 ⟨h, ha⟩, rfl⟩
    have hne : ((arguments.filter (·.1.isNamedArgument)).map (·.2)).isEmpty = false := by
      simpa using List.ne_nil_of_mem hnamed
    rw [hne, if_neg Bool.false_ne_true]
    refine ⟨_, List.mem_append_right _ (List.mem_singleton_self _), ?_⟩
    exact (((Occurs.refl t).intercalate hnamed ", ").append_left _).append_right _
  · refine ⟨t, List.mem_append_left _ ?_, Occurs.refl t⟩
    exact List.mem_map.2 ⟨(a, t), List.mem_filter.2 ⟨h, by simpa using ha⟩, rfl⟩

/-! ## What the constructs with several parts are made of -/

/-- In front of a property stands the object, or `super`; a name behind the
dot is written as a property. -/
theorem emit_member {object property : Expr} {loc : Option Location} {t : String}
    (h : (Expr.member object property loc).emit s = .ok t) :
    ∃ o p, (if object.isSuperCall then .ok "super" else object.emit s.reading) = .ok o ∧
      ((∃ name splat loc, property = .reference name splat loc ∧ p = Identifier.property name) ∨
        property.emit s.reading = .ok p) ∧ t = o ++ "." ++ p := by
  -- the property is written in the same way behind either kind of object
  simp only [Expr.emit] at h
  split at h
  · rename_i hsuper
    obtain ⟨o, ho, h⟩ := Result.bind_eq_ok.1 h
    rw [if_pos hsuper]
    split at h
    · obtain ⟨p, hp, ht⟩ := Result.bind_eq_ok.1 h
      exact ⟨o, p, ho, .inl ⟨_, _, _, rfl, (Except.ok.inj hp).symm⟩, (Result.pure_eq_ok.1 ht).symm⟩
    · obtain ⟨p, hp, ht⟩ := Result.bind_eq_ok.1 h
      exact ⟨o, p, ho, .inr hp, (Result.pure_eq_ok.1 ht).symm⟩
  · rename_i hsuper
    obtain ⟨o, ho, h⟩ := Result.bind_eq_ok.1 h
    rw [if_neg hsuper]
    split at h
    · obtain ⟨p, hp, ht⟩ := Result.bind_eq_ok.1 h
      exact ⟨o, p, ho, .inl ⟨_, _, _, rfl, (Except.ok.inj hp).symm⟩, (Result.pure_eq_ok.1 ht).symm⟩
    · obtain ⟨p, hp, ht⟩ := Result.bind_eq_ok.1 h
      exact ⟨o, p, ho, .inr hp, (Result.pure_eq_ok.1 ht).symm⟩

/-- An index stands in brackets, and a slice without a step becomes a call of
`slice`. -/
theorem emit_subscript {value index : Expr} {loc : Option Location} {t : String}
    (h : (Expr.subscript value index loc).emit s = .ok t) :
    ∃ v, value.emit s.reading = .ok v ∧
      ((∃ start stop step loc a b, index = .slice start stop step loc ∧ step = none ∧
        Expr.emitOption s.reading start = .ok a ∧ Expr.emitOption s.reading stop = .ok b ∧
        t = v ++ ".slice(" ++ ", ".intercalate (sliceBounds a b) ++ ")") ∨
      ∃ i, index.emit s.reading = .ok i ∧ t = v ++ "[" ++ i ++ "]") := by
  by_cases hslice : ∃ start stop step loc, index = .slice start stop step loc
  · obtain ⟨start, stop, step, loc', rfl⟩ := hslice
    simp only [Expr.emit, Result.bind_eq_ok] at h
    obtain ⟨v, hv, h⟩ := h
    split at h
    -- a slice with a step is refused
    · cases h
    · rename_i hstep
      simp only [Result.bind_eq_ok, Result.pure_eq_ok] at h
      obtain ⟨a, ha, b, hb, rfl⟩ := h
      have hnone : step = none := by
        cases step with
        | none => rfl
        | some _ => simp at hstep
      exact ⟨v, hv, .inl ⟨start, stop, step, loc', a, b, rfl, hnone, ha, hb, rfl⟩⟩
  · rw [Expr.emit] at h
    · simp only [Result.bind_eq_ok, Result.pure_eq_ok] at h
      obtain ⟨v, hv, i, hi, rfl⟩ := h
      exact ⟨v, hv, .inr ⟨i, hi, rfl⟩⟩
    · intro start stop step loc' heq
      exact hslice ⟨start, stop, step, loc', heq⟩

theorem occurs_binaryText_left (op : BinaryOp) (l r : String) : Occurs l (binaryText op l r) := by
  unfold binaryText
  split
  · exact ((((Occurs.refl l).append_left _).append_right _).append_right _).append_right _
  · exact ((((Occurs.refl l).append_right _).append_right _).append_right _).append_right _

theorem occurs_binaryText_right (op : BinaryOp) (l r : String) : Occurs r (binaryText op l r) := by
  unfold binaryText
  split
  · exact ((Occurs.refl r).append_left _).append_right _
  · exact (Occurs.refl r).append_left _

theorem occurs_lambdaText_body (ps : List String) (b : String) : Occurs b (lambdaText ps b) := by
  simp only [lambdaText]
  split
  · exact (((Occurs.refl b).append_left _).append_right _).append_left _
  · exact (Occurs.refl b).append_left _

theorem occurs_lambdaText_parameter {ps : List String} {p : String} (b : String) (h : p ∈ ps) :
    Occurs p (lambdaText ps b) := by
  simp only [lambdaText]
  exact ((((Occurs.refl p).intercalate h ", ").append_left _).append_right _).append_right _

/-- The bounds of a slice are those of the source, with zero where the first
is missing. -/
theorem mem_sliceBounds {a b : Option String} {t : String} (h : t ∈ sliceBounds a b) :
    t = "0" ∨ t ∈ a ∨ t ∈ b := by
  unfold sliceBounds at h
  split at h <;> simp_all [eq_comm]

theorem occurs_sliceBounds {a b : Option String} {t : String} (h : a = some t ∨ b = some t) :
    t ∈ sliceBounds a b := by
  unfold sliceBounds
  split <;> simp_all [eq_comm]

end Scribe
