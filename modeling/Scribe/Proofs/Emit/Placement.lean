import Scribe.Proofs.Emit.Domain.Statement
import Scribe.Proofs.Emit.Hanging
import Scribe.Proofs.Emit.Parts

/-!
# Where an expression is written

The text of an expression holds the texts of its parts. Dictionaries and
long returns cut and indent what is inside them, so a part is found again
with a hanging indent: `Expr.Shown` says by how many levels, and under
which receiver the part was written. The receiver is the same all the way
down: only the bodies of functions and classes change it.

`Expr.shows` lists the parts of an expression that are written, and
`Stmt.shows` those of a statement. `appears_part` and `shown_statement`
take one step, `shown_block` goes from a statement at any depth to the
block of the top-level statement around it.
-/

namespace Scribe

open Text

variable {s : Scope} {f : Fragment} {r : Option String} {n : Nat} {e c : Expr} {t u : String}

/-! ## What shows -/

/-- The parts of an expression that are written in its text. The name of
a member is a part of another kind, and what stands for the parent class
or collects named arguments is written without looking at it. -/
def Expr.shows : Expr → List Expr
  | .call callee arguments _ =>
    (if callee.isSuperConstructor then [] else [callee]) ++ arguments
  | .member object property _ =>
    (if object.isSuperCall then [] else [object])
      ++ if property.kind = .reference then [] else [property]
  | .slice start stop _ _ => start.toList ++ stop.toList
  | .lambda parameters body _ => parameters.filter (!·.isCollector) ++ [body]
  | e => e.children

/-- How many levels an expression moves its parts in. -/
def Expr.shift : Expr → Nat
  | .dictionary .. => 1
  | _ => 0

/-- **The text shows the expression**, as it is written under the
receiver `r`, and hanging by `n` levels. -/
def Expr.Shown (r : Option String) (n : Nat) (e : Expr) (t : String) : Prop :=
  ∃ s u, s.receiver = r ∧ e.emit s = .ok u ∧ Occurs (hang n u) t

/-- The text shows the expression or, if it is a slice, its bounds: a
slice has no written form of its own. -/
def Expr.Appears (r : Option String) (n : Nat) (e : Expr) (t : String) : Prop :=
  e.Shown r n t ∨
    (∃ start stop loc, e = .slice start stop none loc) ∧ ∀ c ∈ e.shows, c.Shown r n t

theorem Expr.Shown.of_occurs (h : e.emit s = .ok u) (hr : s.receiver = r) (ho : Occurs u t) :
    e.Shown r 0 t :=
  ⟨s, u, hr, h, by rwa [hang_zero]⟩

theorem Expr.Appears.of_occurs (h : e.emit s = .ok u) (hr : s.receiver = r) (ho : Occurs u t) :
    e.Appears r 0 t :=
  .inl (.of_occurs h hr ho)

/-- What shows in a text shows in every text that holds it. -/
theorem Expr.Shown.mono (h : e.Shown r n t) {t' : String} {m : Nat} (ht : Occurs (hang m t) t') :
    e.Shown r (m + n) t' := by
  obtain ⟨s, u, hs, hu, hocc⟩ := h
  refine ⟨s, u, hs, hu, ?_⟩
  rw [← hang_hang]
  exact (hocc.hang m).trans ht

theorem Expr.Appears.mono (h : e.Appears r n t) {t' : String} {m : Nat}
    (ht : Occurs (hang m t) t') : e.Appears r (m + n) t' := by
  rcases h with h | ⟨hslice, hbounds⟩
  · exact .inl (h.mono ht)
  · exact .inr ⟨hslice, fun c hc => (hbounds c hc).mono ht⟩

/-! ## One step down -/

/-- A parameter that collects no named arguments is written in the
parameter list. -/
theorem exists_parameter_text {ps : List Expr} {slots : List Slot}
    {name definition : Option String} {texts : List String} {p : Expr}
    (h : Expr.emitSlots s ps = .ok slots)
    (htexts : (Signature.ofSlots slots).parameters name = .ok (texts, definition))
    (hp : p ∈ ps) (hnot : p.isCollector = false) :
    ∃ t, p.emit s = .ok t ∧ ∃ u ∈ texts, Occurs t u := by
  obtain ⟨t, ht, slot, hslot, hof⟩ := exists_slot h hp
  have hin := exists_parameter htexts hslot
  refine ⟨t, ht, ?_⟩
  unfold Slot.ofParameter at hof
  split at hof
  · obtain rfl := Except.ok.inj hof
    exact ⟨t, hin, Occurs.refl t⟩
  · obtain rfl := Except.ok.inj hof
    exact ⟨t, hin, Occurs.refl t⟩
  · obtain rfl := Except.ok.inj hof
    exact ⟨t, hin, Occurs.refl t⟩
  · obtain rfl := Except.ok.inj hof
    exact ⟨t, hin, Occurs.refl t⟩
  · cases hnot
  · cases hnot
  · obtain rfl := Except.ok.inj hof
    exact hin
  · simp only [Result.bind_eq_ok, Result.pure_eq_ok] at hof
    obtain ⟨mapped, -, rfl⟩ := hof
    exact hin
  · cases hof

/-- The entries of a dictionary hang by one level. -/
theorem occurs_dictionaryText {es : List String} {e : String} (h : e ∈ es) :
    Occurs (hang 1 e) (dictionaryText es) := by
  have hne : ¬ es.isEmpty = true := by simpa using List.ne_nil_of_mem h
  have hcomma : e ++ "," ∈ es.map (· ++ ",") := List.mem_map_of_mem h
  have hentry : Occurs e (unlines (es.map (· ++ ","))) :=
    occurs_unlines ((Occurs.refl e).append_right ",") hcomma
  rw [dictionaryText, if_neg hne]
  refine (hentry.hang 1).trans ((occurs_indent 1 _).trans (occurs_unlines_mono ?_))
  exact ⟨["\x7b"], ["\x7d"], rfl⟩

/-- A part at the end of the text. -/
theorem Expr.Appears.of_last (h : c.emit s = .ok u) (w : String) :
    c.Appears s.receiver 0 (w ++ u) :=
  .of_occurs h rfl ((Occurs.refl u).append_left w)

section

variable {callee object property value index left right test consequence alternative body
  key : Expr} {arguments parameters entries : List Expr} {loc : Option Location}

/-- A callee is replaced only if it is the constructor of the parent class,
and every argument stands between the parentheses. -/
theorem appears_call (h : (Expr.call callee arguments loc).emit s = .ok t)
    (hc : c ∈ (Expr.call callee arguments loc).shows) : c.Appears s.receiver 0 t := by
  obtain ⟨f, texts, hf, htexts, rfl⟩ := emit_call h
  rcases List.mem_append.1 hc with hc | hc
  · split at hc
    · cases hc
    · rename_i hsuper
      obtain rfl := List.mem_singleton.1 hc
      rw [if_neg hsuper] at hf
      refine .of_occurs hf rfl ?_
      exact (((Occurs.refl f).append_right _).append_right _).append_right _
  · obtain ⟨u, hu, hmem⟩ := emitAll_mem htexts hc
    obtain ⟨v, hv, hocc⟩ := occurs_argumentList hmem
    exact .of_occurs hu rfl (((hocc.intercalate hv ", ").append_left _).append_right _)

/-- The object stands in front of the dot and the property behind it, unless
the one is the parent class and the other a mere name. -/
theorem appears_member (h : (Expr.member object property loc).emit s = .ok t)
    (hc : c ∈ (Expr.member object property loc).shows) : c.Appears s.receiver 0 t := by
  obtain ⟨o, p, ho, hp, rfl⟩ := emit_member h
  rcases List.mem_append.1 hc with hc | hc
  · split at hc
    · cases hc
    · rename_i hsuper
      obtain rfl := List.mem_singleton.1 hc
      rw [if_neg hsuper] at ho
      exact .of_occurs ho rfl (((Occurs.refl o).append_right _).append_right _)
  · split at hc
    · cases hc
    · rename_i hkind
      obtain rfl := List.mem_singleton.1 hc
      rcases hp with ⟨name, splat, loc', rfl, -⟩ | hp
      · exact absurd rfl hkind
      · exact .of_last hp _

/-- The bounds of a slice are arguments of the call that takes the part. -/
theorem shown_bound {start stop : Option Expr} {a b : Option String} {v : String}
    (ha : Expr.emitOption s.reading start = .ok a) (hb : Expr.emitOption s.reading stop = .ok b)
    (hc : c ∈ start.toList ++ stop.toList) :
    c.Shown s.receiver 0 (v ++ ".slice(" ++ ", ".intercalate (sliceBounds a b) ++ ")") := by
  have hbound : ∀ u, u ∈ sliceBounds a b →
      Occurs u (v ++ ".slice(" ++ ", ".intercalate (sliceBounds a b) ++ ")") :=
    fun u hu => (((Occurs.refl u).intercalate hu ", ").append_left _).append_right _
  rcases List.mem_append.1 hc with hc | hc
  · obtain ⟨u, rfl, hu⟩ := emitOption_mem ha (Option.mem_toList.1 hc)
    exact .of_occurs hu rfl (hbound u (occurs_sliceBounds (.inl rfl)))
  · obtain ⟨u, rfl, hu⟩ := emitOption_mem hb (Option.mem_toList.1 hc)
    exact .of_occurs hu rfl (hbound u (occurs_sliceBounds (.inr rfl)))

/-- The index stands in brackets. A slice has no text of its own there, only
its bounds have. -/
theorem appears_subscript (h : (Expr.subscript value index loc).emit s = .ok t)
    (hc : c ∈ (Expr.subscript value index loc).shows) : c.Appears s.receiver 0 t := by
  obtain ⟨v, hv, hindex⟩ := emit_subscript h
  rcases List.mem_cons.1 hc with rfl | hc
  · refine .of_occurs hv rfl ?_
    rcases hindex with ⟨_, _, _, _, a, b, -, -, -, -, rfl⟩ | ⟨i, -, rfl⟩
    · exact (((Occurs.refl v).append_right _).append_right _).append_right _
    · exact (((Occurs.refl v).append_right _).append_right _).append_right _
  · obtain rfl := List.mem_singleton.1 hc
    rcases hindex with ⟨start, stop, step, loc', a, b, rfl, rfl, ha, hb, rfl⟩ | ⟨i, hi, rfl⟩
    · exact .inr ⟨⟨start, stop, loc', rfl⟩, fun c hc => shown_bound ha hb hc⟩
    · exact .of_occurs hi rfl (((Occurs.refl i).append_left _).append_right _)

theorem appears_binary {op : BinaryOp} (h : (Expr.binary left op right loc).emit s = .ok t)
    (hc : c ∈ [left, right]) : c.Appears s.receiver 0 t := by
  simp only [Expr.emit, Result.bind_eq_ok, Result.pure_eq_ok] at h
  obtain ⟨l, hl, r, hr, rfl⟩ := h
  rcases List.mem_cons.1 hc with rfl | hc
  · exact .of_occurs hl rfl (occurs_binaryText_left op l r)
  · obtain rfl := List.mem_singleton.1 hc
    exact .of_occurs hr rfl (occurs_binaryText_right op l r)

theorem appears_conditional (h : (Expr.conditional test consequence alternative loc).emit s = .ok t)
    (hc : c ∈ [test, consequence, alternative]) : c.Appears s.receiver 0 t := by
  simp only [Expr.emit, Result.bind_eq_ok, Result.pure_eq_ok] at h
  obtain ⟨x, hx, y, hy, z, hz, rfl⟩ := h
  simp only [List.mem_cons, List.not_mem_nil, or_false] at hc
  rcases hc with rfl | rfl | rfl
  · refine .of_occurs hx rfl ?_
    exact ((((Occurs.refl x).append_right _).append_right _).append_right _).append_right _
  · exact .of_occurs hy rfl ((((Occurs.refl y).append_left _).append_right _).append_right _)
  · exact .of_last hz _

/-- The parameters of a function without a name that collect no named
arguments are written in front of the arrow, and the body behind it. -/
theorem appears_lambda (h : (Expr.lambda parameters body loc).emit s = .ok t)
    (hc : c ∈ (Expr.lambda parameters body loc).shows) : c.Appears s.receiver 0 t := by
  simp only [Expr.emit, Result.bind_eq_ok, Result.pure_eq_ok] at h
  obtain ⟨slots, hslots, ⟨texts, definition⟩, htexts, b, hb, rfl⟩ := h
  rcases List.mem_append.1 hc with hc | hc
  · obtain ⟨hmem, hnot⟩ := List.mem_filter.1 hc
    obtain ⟨u, hu, v, hv, hocc⟩ := exists_parameter_text hslots htexts hmem (by simpa using hnot)
    exact .of_occurs hu rfl (hocc.trans (occurs_lambdaText_parameter b hv))
  · obtain rfl := List.mem_singleton.1 hc
    exact .of_occurs hb rfl (occurs_lambdaText_body texts b)

theorem appears_sequence {kind : SequenceKind} {items : List (Option Expr)}
    (h : (Expr.sequence kind items loc).emit s = .ok t) (hc : some c ∈ items) :
    c.Appears s.receiver 0 t := by
  simp only [Expr.emit, Result.bind_eq_ok, Result.pure_eq_ok] at h
  obtain ⟨texts, htexts, rfl⟩ := h
  obtain ⟨u, hu, hcu⟩ := emitItems_mem htexts hc
  exact .of_occurs hcu rfl ((((Occurs.refl u).intercalate hu ", ").append_left _).append_right _)

/-- The entries of a dictionary stand on lines of their own, moved in. -/
theorem appears_dictionary (h : (Expr.dictionary entries loc).emit s = .ok t) (hc : c ∈ entries) :
    c.Appears s.receiver 1 t := by
  simp only [Expr.emit, Result.bind_eq_ok, Result.pure_eq_ok] at h
  obtain ⟨texts, htexts, rfl⟩ := h
  obtain ⟨u, hu, hmem⟩ := emitAll_mem htexts hc
  exact .inl ⟨s.reading, u, rfl, hu, occurs_dictionaryText (List.of_mem_zip hmem).2⟩

/-- A key is written as it is or in brackets. -/
theorem appears_pair (h : (Expr.pair key value loc).emit s = .ok t) (hc : c ∈ [key, value]) :
    c.Appears s.receiver 0 t := by
  simp only [Expr.emit, Result.bind_eq_ok, Result.pure_eq_ok] at h
  obtain ⟨k, hk, v, hv, rfl⟩ := h
  rcases List.mem_cons.1 hc with rfl | hc
  · refine .of_occurs hk rfl (Occurs.append_right (Occurs.append_right ?_ _) _)
    split
    · exact Occurs.refl k
    · exact ((Occurs.refl k).append_left _).append_right _
  · obtain rfl := List.mem_singleton.1 hc
    exact .of_last hv _

end

/-- **One step down.** The text of an expression shows each of the parts
that are written. -/
theorem appears_part (h : e.emit s = .ok t) (hc : c ∈ e.shows) :
    c.Appears s.receiver e.shift t := by
  cases e with
  | defaultParameter name value loc =>
    simp only [Expr.emit, Result.bind_eq_ok, Result.pure_eq_ok] at h
    obtain ⟨v, hv, rfl⟩ := h
    obtain rfl := List.mem_singleton.1 hc
    exact .of_last hv _
  | typedDefaultParameter name type value loc =>
    simp only [Expr.emit, Result.bind_eq_ok, Result.pure_eq_ok] at h
    obtain ⟨v, hv, rfl⟩ := h
    obtain rfl := List.mem_singleton.1 hc
    exact .of_last hv _
  | call callee arguments loc => exact appears_call h hc
  | keywordArgument name value loc =>
    simp only [Expr.emit, Result.bind_eq_ok, Result.pure_eq_ok] at h
    obtain ⟨v, hv, rfl⟩ := h
    obtain rfl := List.mem_singleton.1 hc
    exact .of_last hv _
  | member object property loc => exact appears_member h hc
  | subscript value index loc => exact appears_subscript h hc
  -- a slice has no written form of its own
  | slice start stop step loc => simp only [Expr.emit, reduceCtorEq] at h
  | binary left op right loc => exact appears_binary h hc
  | not operand loc =>
    simp only [Expr.emit, Result.bind_eq_ok, Result.pure_eq_ok] at h
    obtain ⟨v, hv, rfl⟩ := h
    obtain rfl := List.mem_singleton.1 hc
    exact .of_last hv _
  | unary op operand loc =>
    simp only [Expr.emit, Result.bind_eq_ok, Result.pure_eq_ok] at h
    obtain ⟨v, hv, rfl⟩ := h
    obtain rfl := List.mem_singleton.1 hc
    exact .of_last hv _
  | conditional test consequence alternative loc => exact appears_conditional h hc
  | parenthesized inner loc =>
    simp only [Expr.emit, Result.bind_eq_ok, Result.pure_eq_ok] at h
    obtain ⟨v, hv, rfl⟩ := h
    obtain rfl := List.mem_singleton.1 hc
    exact .of_occurs hv rfl (((Occurs.refl v).append_left _).append_right _)
  | lambda parameters body loc => exact appears_lambda h hc
  | sequence kind items loc =>
    obtain ⟨i, hi, rfl⟩ := List.mem_filterMap.1 hc
    exact appears_sequence h hi
  | dictionary entries loc => exact appears_dictionary h hc
  | pair key value loc => exact appears_pair h hc
  | _ => cases hc

/-- **From a text that shows an expression to the parts of it.** -/
theorem Expr.Appears.part (h : e.Appears r n t) (hc : c ∈ e.shows) :
    c.Appears r (n + e.shift) t := by
  rcases h with ⟨s, u, rfl, hu, hocc⟩ | ⟨⟨start, stop, loc, rfl⟩, hbounds⟩
  · exact (appears_part hu hc).mono hocc
  · exact .inl (hbounds c hc)

/-! ## Statements -/

/-- The expressions that a statement writes itself in the scope `s`. A
receiver is not passed, a field is written by its name, and the base
class `object` is left out. -/
def Stmt.shows (s : Scope) : Stmt → List Expr
  | .expression value => [value]
  | .assignment left (some right) _ _ _ => if s.kind = .classBody then [right] else [left, right]
  | .function _ parameters _ _ decorators _ =>
    (s.passed decorators parameters).filter (!·.isCollector)
  | .classDefinition _ _ arguments _ _ => (arguments.getD []).filter (!·.isObject)
  | .conditional choices _ => Choice.tests choices
  | .forLoop left right _ _ => [left, right]
  | .whileLoop test _ _ => [test]
  | .returning value _ => value.toList
  | .raising value _ => [value]
  | _ => []

/-- How many levels a statement moves its expressions in: what is
returned stands in parentheses of its own, if it has several lines. -/
def Stmt.shift : Stmt → Nat
  | .returning .. => 1
  | _ => 0

theorem emit_assignment {left right : Expr} {operator : String} {type : Option String}
    (h : emitAssignment s left (some right) operator type = .ok f) :
    ∃ l r, left.emit s.assigning = .ok l ∧ right.emit s.reading = .ok r ∧
      f = .ofLines (statementLines (l ++ " " ++ operator ++ " " ++ r)) := by
  rw [emitAssignment_eq] at h
  obtain ⟨_, -, h⟩ := Result.bind_eq_ok.1 h
  simp only [assignedText, Result.bind_eq_ok, Result.pure_eq_ok] at h
  obtain ⟨l, hl, r, hr, rfl⟩ := h
  exact ⟨l, r, hl, hr, rfl⟩

theorem emit_field {left : Expr} {right : Option Expr} {operator : String}
    {type : Option String} (h : emitField s left right operator type = .ok f) :
    ∃ name splat loc t v, left = .reference name splat loc ∧ fieldType type = .ok t ∧
      fieldValue s right = .ok v ∧ f = .ofLines (lines (Identifier.property name ++ t ++ v)) := by
  by_cases hfield : IsField left operator
  · obtain ⟨name, splat, loc, rfl, rfl⟩ := hfield
    rw [emitField_eq] at h
    simp only [Result.bind_eq_ok, Result.pure_eq_ok] at h
    obtain ⟨t, ht, v, hv, rfl⟩ := h
    exact ⟨name, splat, loc, t, v, rfl, ht, hv, rfl⟩
  · rw [emitField_refused s hfield] at h
    cases h

theorem occurs_functionHeader (s : Scope) (name : String) (decorators : List String)
    {texts : List String} (returns : String) {t : String} (h : t ∈ texts) :
    Occurs t (s.functionHeader name decorators texts returns) := by
  have hsignature : Occurs t ("(" ++ ", ".intercalate texts ++ ")") :=
    (((Occurs.refl t).intercalate h ", ").append_left _).append_right _
  simp only [Scope.functionHeader]
  split
  · exact (hsignature.append_left _).append_right _
  · split
    · exact ((hsignature.append_left _).append_right _).append_right _
    · exact ((hsignature.append_left _).append_right _).append_right _

/-- **The lines show the expression.** -/
def Expr.ShownOn (r : Option String) (n : Nat) (e : Expr) (ls : List String) : Prop :=
  ls ≠ [] ∧ e.Shown r n (unlines ls)

theorem Expr.ShownOn.of_mem {l : String} {ls : List String} (h : e.emit s = .ok u)
    (hr : s.receiver = r) (hl : l ∈ ls) (ho : Occurs u l) : e.ShownOn r 0 ls :=
  ⟨List.ne_nil_of_mem hl, .of_occurs h hr (occurs_unlines ho hl)⟩

theorem Expr.ShownOn.of_lines (h : e.emit s = .ok u) (hr : s.receiver = r) (ho : Occurs u t) :
    e.ShownOn r 0 (lines t) :=
  ⟨lines_ne_nil t, .of_occurs h hr (by rwa [unlines_lines])⟩

theorem Expr.ShownOn.of_statementLines (h : e.emit s = .ok u) (hr : s.receiver = r)
    (ho : Occurs u t) : e.ShownOn r 0 (statementLines t) := by
  rw [statementLines]
  refine .of_lines h hr ?_
  split
  · exact ho.append_left _
  · exact ho.append_left _
  · exact ho

theorem shown_base {arguments : Option (List Expr)} (h : extendsText s arguments = .ok t)
    (he : e ∈ (arguments.getD []).filter (!·.isObject)) : e.Shown s.receiver 0 t := by
  simp only [extendsText, Result.bind_eq_ok] at h
  obtain ⟨kept, hkept, h⟩ := h
  rw [← (decides_keptBases _).2 kept hkept] at he
  split at h
  · cases he
  · simp only [Result.bind_eq_ok, Result.pure_eq_ok] at h
    obtain ⟨b, hb, rfl⟩ := h
    obtain rfl := List.mem_singleton.1 he
    exact .of_occurs hb rfl ((Occurs.refl b).append_left _)
  · cases h

theorem shown_return {value : Option Expr} (h : emitReturn s value = .ok f) (he : e ∈ value) :
    e.ShownOn s.receiver 1 f.lines := by
  obtain rfl := Option.mem_def.1 he
  simp only [emitReturn, Result.bind_eq_ok] at h
  obtain ⟨t, ht, h⟩ := h
  split at h
  · -- a value of one line hangs by any number of levels
    rename_i line hline
    obtain rfl := Result.pure_eq_ok.1 h
    have hone : line = t := by
      rw [← unlines_lines t, hline]
      exact (unlines_singleton _).symm
    have hnl : '\n' ∉ t.toList := by
      rw [← hone]
      exact not_mem_of_mem_lines (hline ▸ List.mem_singleton_self line)
    refine ⟨List.cons_ne_nil _ _, s.reading, t, rfl, ht, ?_⟩
    rw [hang_eq_self hnl, hone]
    exact occurs_unlines ((Occurs.refl t).append_left _) (List.mem_singleton_self _)
  · obtain rfl := Result.pure_eq_ok.1 h
    refine ⟨List.cons_ne_nil _ _, s.reading, t, rfl, ht, ?_⟩
    have hhung := occurs_indent 1 (lines t)
    rw [unlines_lines] at hhung
    exact hhung.trans (occurs_unlines_mono ⟨["return ("], [")"], rfl⟩)

theorem shown_raise (h : emitRaise s e = .ok f) : e.ShownOn s.receiver 0 f.lines := by
  simp only [emitRaise, Result.bind_eq_ok] at h
  obtain ⟨t, ht, h⟩ := h
  split at h
  · obtain rfl := Result.pure_eq_ok.1 h
    exact .of_lines ht rfl ((Occurs.refl t).append_left _)
  · obtain rfl := Result.pure_eq_ok.1 h
    exact .of_mem ht rfl (List.mem_singleton_self _)
      (((Occurs.refl t).append_left _).append_right _)
  · obtain rfl := Result.pure_eq_ok.1 h
    exact .of_mem ht rfl (List.mem_singleton_self _)
      (((Occurs.refl t).append_left _).append_right _)
  · cases h

/-- A field shows its value, behind its name and its type. -/
theorem shown_field {left right : Expr} {operator : String} {type : Option String}
    (h : emitField s left (some right) operator type = .ok f) :
    right.ShownOn s.receiver 0 f.lines := by
  obtain ⟨name, splat, loc, t, v, -, -, hv, rfl⟩ := emit_field h
  simp only [fieldValue, Result.map_eq_ok] at hv
  obtain ⟨u, hu, rfl⟩ := hv
  have hocc := ((Occurs.refl u).append_left " = ").append_left (Identifier.property name ++ t)
  dsimp only [Fragment.ofLines]
  exact .of_lines hu rfl hocc

/-- An assignment outside classes shows both sides of its operator. -/
theorem shown_assigned {left right : Expr} {operator : String} {type : Option String}
    (h : emitAssignment s left (some right) operator type = .ok f) (he : e ∈ [left, right]) :
    e.ShownOn s.receiver 0 f.lines := by
  obtain ⟨l, r, hl, hr, rfl⟩ := emit_assignment h
  rcases List.mem_cons.1 he with rfl | he
  · refine .of_statementLines hl rfl ?_
    exact ((((Occurs.refl l).append_right _).append_right _).append_right _).append_right _
  · obtain rfl := List.mem_singleton.1 he
    exact .of_statementLines hr rfl ((Occurs.refl r).append_left _)

/-- Every test stands on the line that opens its branch. -/
theorem shown_test {choices : List Choice} {loc : Option Location}
    (h : (Stmt.conditional choices loc).emit s = .ok f) (he : e ∈ Choice.tests choices) :
    e.ShownOn s.receiver 0 f.lines := by
  obtain ⟨c, hc, rfl⟩ := emit_conditional h
  obtain ⟨body, hmem⟩ := Choice.mem_tests.1 he
  obtain ⟨first, last, g, hg, hin⟩ := emitChoices_mem hc hmem
  obtain ⟨t, b, -, ht, -, rfl⟩ := emit_choice hg
  obtain ⟨u, rfl, hu⟩ := emitOption_mem ht rfl
  refine .of_mem hu rfl (List.mem_append_left _ (hin.subset (List.mem_cons_self ..))) ?_
  exact ((Occurs.refl u).append_left _).append_right _

theorem shown_loop {left right : Expr} {body : List Stmt} {loc : Option Location}
    (h : (Stmt.forLoop left right body loc).emit s = .ok f) (he : e ∈ [left, right]) :
    e.ShownOn s.receiver 0 f.lines := by
  obtain ⟨l, r, b, hl, hr, -, rfl⟩ := emit_forLoop h
  rcases List.mem_cons.1 he with rfl | he
  · refine .of_mem hl rfl (List.mem_cons_self ..) ?_
    exact ((((Occurs.refl l).append_left _).append_right _).append_right _).append_right _
  · obtain rfl := List.mem_singleton.1 he
    refine .of_mem hr rfl (List.mem_cons_self ..) ?_
    exact ((Occurs.refl r).append_left _).append_right _

/-- **Every statement shows its expressions on its own lines.** -/
theorem shown_statement {st : Stmt} (h : st.emit s = .ok f) (he : e ∈ st.shows s) :
    e.ShownOn s.receiver st.shift f.lines := by
  cases st with
  | expression value =>
    simp only [Stmt.emit, Result.bind_eq_ok, Result.pure_eq_ok] at h
    obtain ⟨t, ht, rfl⟩ := h
    obtain rfl := List.mem_singleton.1 he
    exact .of_statementLines ht rfl (Occurs.refl t)
  | assignment left right operator type loc =>
    cases right with
    -- without a value nothing is shown
    | none => cases he
    | some right =>
      simp only [Stmt.emit] at h
      simp only [Stmt.shows] at he
      split at h
      · rename_i hkind
        rw [if_pos hkind, List.mem_singleton] at he
        subst he
        exact shown_field h
      · rename_i hkind
        rw [if_neg hkind] at he
        exact shown_assigned h he
  | function name parameters body returnType decorators loc =>
    obtain ⟨slots, texts, definition, b, returns, hslots, htexts, -, -, rfl⟩ := emit_function h
    obtain ⟨hmem, hnot⟩ := List.mem_filter.1 he
    -- all but a collector are written in the opening line
    obtain ⟨u, hu, t, ht, hocc⟩ :=
      exists_parameter_text hslots htexts hmem (by simpa using hnot)
    refine .of_mem hu rfl ?_ (hocc.trans (occurs_functionHeader s name decorators
      returns ht))
    exact List.mem_append_right _ (List.mem_cons_self ..)
  | classDefinition name body arguments decorators loc =>
    obtain ⟨base, b, hbase, -, rfl⟩ := emit_class h
    obtain ⟨s', u, hs', hu, hocc⟩ := shown_base hbase he
    refine .of_mem hu hs' (List.mem_append_right _ (List.mem_cons_self ..)) ?_
    rw [hang_zero] at hocc
    exact (hocc.append_left _).append_right _
  | conditional choices loc => exact shown_test h he
  | forLoop left right body loc => exact shown_loop h he
  | whileLoop test body loc =>
    obtain ⟨t, b, ht, -, rfl⟩ := emit_whileLoop h
    obtain rfl := List.mem_singleton.1 he
    exact .of_mem ht rfl (List.mem_cons_self ..)
      (((Occurs.refl t).append_left _).append_right _)
  | returning value loc =>
    simp only [Stmt.emit] at h
    exact shown_return h (Option.mem_toList.1 he)
  | raising value loc =>
    simp only [Stmt.emit] at h
    obtain rfl := List.mem_singleton.1 he
    exact shown_raise h
  | simple kind loc => cases he
  | comment text loc => cases he

/-! ## Blocks -/

theorem Text.Occurs.releaseNewlines {w t : String} (h : Occurs w t) :
    Occurs (Literal.releaseNewlines w) (Literal.releaseNewlines t) := by
  rw [Occurs, Literal.releaseNewlines, Literal.releaseNewlines, String.toList_ofList,
    String.toList_ofList]
  exact List.IsInfix.map _ h

/-- Lines that stand among others, indented or not, leave them not empty. -/
theorem ne_nil_of_infix_indent {d : Nat} {ls ms : List String}
    (h : indent d ls <:+: indent 0 ms) (hls : ls ≠ []) : ms ≠ [] := by
  rintro rfl
  rw [indent_nil, List.infix_nil, indent_eq_nil] at h
  exact hls h

/-- **From a statement at any depth to one around it.** What a statement
shows hangs, on the lines of a statement that holds it, by one more level
for each body in between. -/
theorem Stmt.Holds.shownOn {st inner : Stmt} {s' : Scope} {d : Nat} (h : st.Holds s d s' inner)
    (hf : st.emit s = .ok f) (he : e ∈ inner.shows s') :
    e.ShownOn s'.receiver (d + inner.shift) f.lines := by
  obtain ⟨g, hg, hlines⟩ := h.infix_lines hf
  obtain ⟨hne, hshown⟩ := shown_statement hg he
  refine ⟨ne_nil_of_infix_indent hlines hne, hshown.mono ?_⟩
  rw [← unlines_flatMap_lines f.lines, ← indent_zero]
  exact (occurs_indent d g.lines).trans (occurs_unlines_mono hlines)

/-- **From a statement at any depth to its block.** -/
theorem shown_block {body : List Stmt} {blocks : List String} {st inner : Stmt} {d : Nat}
    (h : statementBlocks body = .ok blocks) (hst : st ∈ body)
    (hholds : st.Holds .top d s inner) (he : e ∈ inner.shows s) :
    ∃ f, st.emit .top = .ok f ∧ assemble f.lines ∈ blocks ∧
      e.Shown s.receiver (d + inner.shift) (unlines f.lines) := by
  obtain ⟨f, hf, hblocks⟩ := statementBlocks_mem h hst
  obtain ⟨hne, hshown⟩ := hholds.shownOn hf he
  exact ⟨f, hf, hblocks.subset (assemble_mem_blocks hne), hshown⟩

end Scribe
