import Scribe.Proofs.Build.Sound.Statement
import Scribe.Proofs.Emit.Placement

/-!
# What a statement starts with

The output has no semicolons at the ends of its lines, so a line goes on
with the line before it if its first character lets it, and a brace opens
a block. A statement whose text starts with `[` or `(` gets a semicolon in
front of it. The other characters of this sort are not looked at.

The first character of a statement is that of its leftmost part, which is
found through callees, objects, containers, left operands and tests
(`Expr.lead`). `statement_starts` says for every expression statement and
assignment outside class bodies what its first line starts with: with a
hazard exactly if the leftmost part is exposed (`Expr.Exposed`), that is
signed, a dictionary, a template literal, a starred name, or written with
such a character itself, as the number `.5` is.
-/

namespace Scribe

open Text

/-! ## First characters -/

/-- The text starts with one of the characters. -/
def startsIn (cs : List Char) (t : String) : Bool :=
  t.toList.head?.any cs.contains

/-- The hazards that get a semicolon in front of them. -/
def guarded : List Char :=
  ['[', '(']

/-- The hazards that nothing is done about. -/
def unguarded : List Char :=
  ['\x60', '+', '-', '/', '.', ',', '\x7b']

/-- **What a statement must not start with**: a line that starts so goes
on with the line before it or, with a brace, is read as a block. -/
def hazards : List Char :=
  guarded ++ unguarded

theorem startsIn_of_prefix_text {cs : List Char} {t u : String} (h : u.toList <+: t.toList)
    (hu : u ≠ "") : startsIn cs t = startsIn cs u := by
  obtain ⟨rest, hrest⟩ := h
  obtain ⟨c, us, hus⟩ := List.exists_cons_of_ne_nil (mt String.toList_eq_nil_iff.1 hu)
  rw [startsIn, startsIn, ← hrest, hus]
  rfl

theorem startsIn_append {cs : List Char} (t u : String) (ht : t ≠ "") :
    startsIn cs (t ++ u) = startsIn cs t :=
  startsIn_of_prefix_text (by simp) ht

theorem startsIn_hazards (t : String) :
    startsIn hazards t = (startsIn guarded t || startsIn unguarded t) := by
  unfold startsIn hazards
  cases t.toList.head? with
  | none => rfl
  | some c => exact List.contains_append

/-- The first line starts like the text. -/
theorem startsIn_line {cs : List Char} {t l : String} {ls : List String} (hcs : '\n' ∉ cs)
    (h : lines t = l :: ls) : startsIn cs l = startsIn cs t := by
  obtain ⟨p, ps, hsplit⟩ := List.exists_cons_of_ne_nil (List.splitOn_ne_nil '\n' t.toList)
  rw [lines, hsplit, List.map_cons] at h
  obtain ⟨rfl, -⟩ := List.cons.inj h
  rw [startsIn, startsIn, String.toList_ofList]
  cases ht : t.toList with
  | nil =>
    obtain ⟨rfl, -⟩ : [] = p ∧ [] = ps := by simpa [ht] using hsplit
    rfl
  | cons c cs' =>
    rw [ht, List.splitOn_cons_eq_if_modifyHead] at hsplit
    by_cases hc : c = '\n'
    · -- a text that starts with a newline has an empty first line
      rw [if_pos (by simpa using hc)] at hsplit
      obtain ⟨rfl, -⟩ := List.cons.inj hsplit
      simp [hc, hcs]
    · rw [if_neg (by simpa using hc)] at hsplit
      obtain ⟨q, qs, hqs⟩ := List.exists_cons_of_ne_nil (List.splitOn_ne_nil '\n' cs')
      rw [hqs, List.modifyHead_cons] at hsplit
      obtain ⟨rfl, -⟩ := List.cons.inj hsplit
      rfl

theorem statementLines_eq (t : String) :
    statementLines t = lines (if startsIn guarded t then ";" ++ t else t) := by
  unfold statementLines startsIn
  split
  · rename_i h
    simp [h, guarded]
  · rename_i h
    simp [h, guarded]
  · rename_i hbracket hparen
    cases ht : t.toList with
    | nil => rfl
    | cons c cs =>
      have hb : c ≠ '[' := fun hc => hbracket cs (by rw [ht, hc])
      have hp : c ≠ '(' := fun hc => hparen cs (by rw [ht, hc])
      simp [guarded, hb, hp]

/-- **The guard.** A statement starts with a semicolon if its text starts
with a guarded hazard, -/
theorem semicolon_of_guarded {t l : String} {ls : List String} (h : statementLines t = l :: ls)
    (ht : startsIn guarded t = true) : startsIn [';'] l = true := by
  rw [statementLines_eq, if_pos ht] at h
  rw [startsIn_line (by decide) h, startsIn_append _ _ (by decide)]
  decide

/-- and it starts with a hazard exactly if its text does with one that is
not guarded. -/
theorem startsIn_statementLines {t l : String} {ls : List String}
    (h : statementLines t = l :: ls) : startsIn hazards l = startsIn unguarded t := by
  rw [statementLines_eq] at h
  cases hguarded : startsIn guarded t with
  | false =>
    rw [hguarded, if_neg Bool.false_ne_true] at h
    rw [startsIn_line (by decide) h, startsIn_hazards, hguarded, Bool.false_or]
  | true =>
    rw [hguarded, if_pos rfl] at h
    rw [startsIn_line (by decide) h, startsIn_append _ _ (by decide)]
    unfold startsIn at hguarded ⊢
    cases hhead : t.toList.head? with
    | none => rfl
    | some c =>
      rw [hhead] at hguarded
      simp only [guarded, Option.any_some, List.contains_cons, List.contains_nil, Bool.or_false,
        Bool.or_eq_true, beq_iff_eq] at hguarded
      rcases hguarded with rfl | rfl <;> decide

/-! ## Leftmost parts -/

/-- **The leftmost part of an expression**, whose text starts the text of
the expression. What stands for the parent class is written without
looking at it, and a division that rounds down is written as a call. -/
def Expr.lead : Expr → Expr
  | .call callee arguments loc =>
    if callee.isSuperConstructor then .call callee arguments loc else callee.lead
  | .member object property loc =>
    if object.isSuperCall then .member object property loc else object.lead
  | .subscript value _ _ => value.lead
  | .binary left op right loc => if op = .floorDiv then .binary left op right loc else left.lead
  | .conditional test _ _ _ => test.lead
  | e => e

/-- **The part is exposed**: written as `u`, it starts with a hazard that
is not guarded. -/
def Expr.Exposed (u : String) : Expr → Prop
  | .unary op _ _ => op ≠ .invert
  | .dictionary .. => True
  | .string text _ =>
    Literal.opensTriple (Literal.unlettered text.toList) = true ∨ startsIn unguarded u = true
  | .reference _ (some _) _ => True
  | .reference _ none _ => startsIn unguarded u = true
  | .number .. => startsIn unguarded u = true
  | _ => False

/-- **The text `t` of an expression starts with the text `u` of its
leftmost part**, which decides whether the part is exposed. -/
structure Expr.LedBy (r : Option String) (e : Expr) (t u : String) : Prop where
  written : ∃ s, s.receiver = r ∧ e.lead.emit s = .ok u
  starts : u.toList <+: t.toList
  exposed_iff : u ≠ "" → (startsIn unguarded u = true ↔ e.lead.Exposed u)

variable {s : Scope} {e c : Expr} {t u : String} {r : Option String}

theorem exists_led_self (hlead : e.lead = e) (h : e.emit s = .ok t)
    (hexposed : startsIn unguarded t = true ↔ e.Exposed t) : ∃ u, e.LedBy s.receiver t u :=
  ⟨t, ⟨s, rfl, hlead.symm ▸ h⟩, List.prefix_rfl, fun _ => hlead.symm ▸ hexposed⟩

theorem exists_led_of_part (hlead : e.lead = c.lead) (hstarts : u.toList <+: t.toList)
    (h : ∃ v, c.LedBy r u v) : ∃ v, e.LedBy r t v := by
  obtain ⟨v, hwritten, hv, hexposed⟩ := h
  exact ⟨v, hlead.symm ▸ hwritten, hv.trans hstarts, hlead.symm ▸ hexposed⟩

/-- A part that is written with a fixed text in front is exposed or not
by that text. -/
theorem exists_led_fixed {w : String} (hlead : e.lead = e) (h : e.emit s = .ok t)
    (hstarts : w.toList <+: t.toList) (hw : w ≠ "")
    (hexposed : startsIn unguarded w = true ↔ e.Exposed t) : ∃ u, e.LedBy s.receiver t u :=
  exists_led_self hlead h (by rwa [startsIn_of_prefix_text hstarts hw])

theorem prefix_append (t u : String) : t.toList <+: (t ++ u).toList := by
  rw [String.toList_append]
  exact List.prefix_append ..

/-- A triple-quoted literal is written in backquotes. -/
theorem startsIn_written {text : String}
    (h : Literal.opensTriple (Literal.unlettered text.toList) = true) :
    startsIn unguarded (Literal.written text) = true := by
  rw [Literal.written, if_pos h, startsIn, String.toList_ofList]
  rfl

theorem startsIn_spelling (op : UnaryOp) :
    startsIn unguarded op.spelling = true ↔ op ≠ .invert := by
  cases op <;> decide

theorem prefix_unlines (l : String) (ls : List String) :
    l.toList <+: (unlines (l :: ls)).toList := by
  have hcons := unlines_cons_append l "" ls
  rw [String.append_empty] at hcons
  rw [hcons]
  exact prefix_append ..

theorem prefix_dictionaryText (es : List String) :
    "\x7b".toList <+: (dictionaryText es).toList := by
  unfold dictionaryText
  split
  · exact prefix_append "\x7b" "\x7d"
  · exact prefix_unlines ..

/-! ### The part in front -/

/-- **The expression is written from the part `c` on.** -/
inductive Expr.Front (c : Expr) : Expr → Prop
  | call {arguments : List Expr} {loc : Option Location} : ¬ c.isSuperConstructor = true →
    Front c (.call c arguments loc)
  | member {property : Expr} {loc : Option Location} : ¬ c.isSuperCall = true →
    Front c (.member c property loc)
  | subscript {index : Expr} {loc : Option Location} : Front c (.subscript c index loc)
  | binary {op : BinaryOp} {right : Expr} {loc : Option Location} : ¬ op = .floorDiv →
    Front c (.binary c op right loc)
  | conditional {consequence alternative : Expr} {loc : Option Location} :
    Front c (.conditional c consequence alternative loc)

namespace Expr.Front

theorem lead_eq (h : Front c e) : e.lead = c.lead := by
  cases h with
  | call hsuper => exact if_neg hsuper
  | member hsuper => exact if_neg hsuper
  | subscript => rfl
  | binary hop => exact if_neg hop
  | conditional => rfl

theorem mem_children (h : Front c e) : c ∈ e.children := by
  cases h <;> simp [children]

/-- The part in front of a value or of a target is a value. -/
theorem fits (h : Front c e) (hfits : e.fits .value = true ∨ e.fits .target = true) :
    c.fits .value = true := by
  cases h with
  | conditional =>
    simp only [Expr.fits, Bool.and_eq_true] at hfits
    exact hfits.elim (·.1.1.2) (·.1.1.2)
  | _ =>
    simp only [Expr.fits, Bool.and_eq_true] at hfits
    exact hfits.elim (·.1.2) (·.1.2)

/-- **The text starts with that of the part in front.** -/
theorem exists_text (hc : Front c e) (h : e.emit s = .ok t) :
    ∃ u, c.emit s.reading = .ok u ∧ u.toList <+: t.toList := by
  cases hc with
  | call hsuper =>
    obtain ⟨f, texts, hf, -, rfl⟩ := emit_call h
    rw [if_neg hsuper] at hf
    refine ⟨f, hf, ?_⟩
    simp only [String.append_assoc]
    exact prefix_append ..
  | member hsuper =>
    obtain ⟨o, p, ho, -, rfl⟩ := emit_member h
    rw [if_neg hsuper] at ho
    refine ⟨o, ho, ?_⟩
    rw [String.append_assoc]
    exact prefix_append ..
  | subscript =>
    obtain ⟨v, hv, hindex⟩ := emit_subscript h
    refine ⟨v, hv, ?_⟩
    -- a slice is written as a call behind the value, another index in brackets behind it
    rcases hindex with ⟨_, _, _, _, a, b, -, -, -, -, rfl⟩ | ⟨i, -, rfl⟩
    · simp only [String.append_assoc]
      exact prefix_append ..
    · simp only [String.append_assoc]
      exact prefix_append ..
  | binary hop =>
    simp only [Expr.emit, Result.bind_eq_ok, Result.pure_eq_ok] at h
    obtain ⟨l, hl, r, -, rfl⟩ := h
    refine ⟨l, hl, ?_⟩
    rw [binaryText, if_neg hop]
    simp only [String.append_assoc]
    exact prefix_append ..
  | conditional =>
    simp only [Expr.emit, Result.bind_eq_ok, Result.pure_eq_ok] at h
    obtain ⟨x, hx, y, -, z, -, rfl⟩ := h
    refine ⟨x, hx, ?_⟩
    simp only [String.append_assoc]
    exact prefix_append ..

end Expr.Front

/-! ### Fixed beginnings -/

/-- **The expression starts with the text `w`**, whatever its parts are. -/
inductive Expr.OpensWith : String → Expr → Prop
  | splat {name : String} {splat : Splat} {loc : Option Location} :
    OpensWith "..." (.reference name (some splat) loc)
  | superConstructor {callee : Expr} {arguments : List Expr} {loc : Option Location} :
    callee.isSuperConstructor = true → OpensWith "super" (.call callee arguments loc)
  | superCall {object property : Expr} {loc : Option Location} : object.isSuperCall = true →
    OpensWith "super" (.member object property loc)
  | floorDiv {left right : Expr} {loc : Option Location} :
    OpensWith "Math.floor(" (.binary left .floorDiv right loc)
  | not {operand : Expr} {loc : Option Location} : OpensWith "!" (.not operand loc)
  | unary {op : UnaryOp} {operand : Expr} {loc : Option Location} :
    OpensWith op.spelling (.unary op operand loc)
  | parenthesized {inner : Expr} {loc : Option Location} :
    OpensWith "(" (.parenthesized inner loc)
  | lambda {parameters : List Expr} {body : Expr} {loc : Option Location} :
    OpensWith "(" (.lambda parameters body loc)
  | sequence {kind : SequenceKind} {items : List (Option Expr)} {loc : Option Location} :
    OpensWith "[" (.sequence kind items loc)
  | dictionary {entries : List Expr} {loc : Option Location} :
    OpensWith "\x7b" (.dictionary entries loc)

namespace Expr.OpensWith

variable {w : String}

theorem lead_eq (hw : OpensWith w e) : e.lead = e := by
  cases hw with
  | superConstructor hsuper => exact if_pos hsuper
  | superCall hsuper => exact if_pos hsuper
  | _ => rfl

theorem prefix_text (hw : OpensWith w e) (h : e.emit s = .ok t) : w.toList <+: t.toList := by
  cases hw with
  | splat =>
    obtain rfl := Except.ok.inj h
    exact prefix_append "..." _
  | superConstructor hsuper =>
    obtain ⟨f, texts, hf, -, rfl⟩ := emit_call h
    rw [if_pos hsuper] at hf
    obtain rfl := Except.ok.inj hf
    simp only [String.append_assoc]
    exact prefix_append ..
  | superCall hsuper =>
    obtain ⟨o, p, ho, -, rfl⟩ := emit_member h
    rw [if_pos hsuper] at ho
    obtain rfl := Except.ok.inj ho
    rw [String.append_assoc]
    exact prefix_append ..
  | floorDiv =>
    simp only [Expr.emit, Result.bind_eq_ok, Result.pure_eq_ok] at h
    obtain ⟨l, -, r, -, rfl⟩ := h
    rw [binaryText, if_pos rfl]
    simp only [String.append_assoc]
    exact prefix_append ..
  | lambda =>
    simp only [Expr.emit, Result.bind_eq_ok, Result.pure_eq_ok] at h
    obtain ⟨slots, -, texts, -, b, -, rfl⟩ := h
    rw [lambdaText]
    simp only [String.append_assoc]
    exact prefix_append ..
  | dictionary =>
    simp only [Expr.emit, Result.bind_eq_ok, Result.pure_eq_ok] at h
    obtain ⟨texts, -, rfl⟩ := h
    exact prefix_dictionaryText texts
  | _ =>
    -- one part behind the beginning, with a bracket behind it or not
    simp only [Expr.emit, Result.bind_eq_ok, Result.pure_eq_ok] at h
    obtain ⟨v, -, rfl⟩ := h
    try rw [String.append_assoc]
    exact prefix_append ..

/-- **A fixed beginning decides** whether the expression is exposed. -/
theorem exposed_iff (hw : OpensWith w e) :
    w ≠ "" ∧ (startsIn unguarded w = true ↔ e.Exposed t) := by
  cases hw with
  | splat => exact ⟨by decide, iff_of_true (by decide) trivial⟩
  | @unary op operand loc => exact ⟨by cases op <;> decide, startsIn_spelling op⟩
  | dictionary => exact ⟨by decide, iff_of_true (by decide) trivial⟩
  | _ => exact ⟨by decide, iff_of_false (by decide) id⟩

end Expr.OpensWith

/-! ### Words -/

/-- A name or a literal. -/
def Expr.IsWord : Expr → Prop
  | .reference _ none _ => True
  | .string .. => True
  | .number .. => True
  | .boolean .. => True
  | .null _ => True
  | _ => False

/-- A word is exposed as it is written. -/
theorem Expr.IsWord.led (hword : e.IsWord) (h : e.emit s = .ok t) :
    ∃ u, e.LedBy s.receiver t u := by
  cases e with
  | reference name splat loc =>
    cases splat with
    | none => exact exists_led_self rfl h Iff.rfl
    | some splat => cases hword
  | string text loc =>
    obtain rfl := Except.ok.inj h
    refine exists_led_self rfl rfl ⟨.inr, ?_⟩
    rintro (htriple | hstarts)
    · exact startsIn_written htriple
    · exact hstarts
  | number kind text loc => exact exists_led_self rfl h Iff.rfl
  | boolean value loc =>
    obtain rfl := Except.ok.inj h
    exact exists_led_self rfl rfl (iff_of_false (by cases value <;> decide) id)
  | null loc =>
    obtain rfl := Except.ok.inj h
    exact exists_led_self rfl rfl (iff_of_false (by decide) id)
  | _ => cases hword

/-- **The beginning of an expression** is a part, fixed, or the whole
expression. -/
theorem Expr.beginning (hfits : e.fits .value = true ∨ e.fits .target = true) :
    (∃ c, Front c e) ∨ (∃ w, OpensWith w e) ∨ e.IsWord := by
  cases e with
  | call callee arguments loc =>
    by_cases hsuper : callee.isSuperConstructor = true
    · exact .inr (.inl ⟨_, .superConstructor hsuper⟩)
    · exact .inl ⟨_, .call hsuper⟩
  | member object property loc =>
    by_cases hsuper : object.isSuperCall = true
    · exact .inr (.inl ⟨_, .superCall hsuper⟩)
    · exact .inl ⟨_, .member hsuper⟩
  | binary left op right loc =>
    by_cases hop : op = .floorDiv
    · subst hop
      exact .inr (.inl ⟨_, .floorDiv⟩)
    · exact .inl ⟨_, .binary hop⟩
  | reference name splat loc =>
    cases splat with
    | none => exact .inr (.inr trivial)
    | some splat => exact .inr (.inl ⟨_, .splat⟩)
  | subscript value index loc => exact .inl ⟨_, .subscript⟩
  | conditional test consequence alternative loc => exact .inl ⟨_, .conditional⟩
  | not operand loc => exact .inr (.inl ⟨_, .not⟩)
  | unary op operand loc => exact .inr (.inl ⟨_, .unary⟩)
  | parenthesized inner loc => exact .inr (.inl ⟨_, .parenthesized⟩)
  | lambda parameters body loc => exact .inr (.inl ⟨_, .lambda⟩)
  | sequence kind items loc => exact .inr (.inl ⟨_, .sequence⟩)
  | dictionary entries loc => exact .inr (.inl ⟨_, .dictionary⟩)
  | string text loc => exact .inr (.inr trivial)
  | number kind text loc => exact .inr (.inr trivial)
  | boolean value loc => exact .inr (.inr trivial)
  | null loc => exact .inr (.inr trivial)
  -- the others stand in places of their own and are no values
  | _ => simp [Expr.fits] at hfits

/-- **Every text starts with that of the leftmost part.** -/
theorem exists_led (h : e.emit s = .ok t) (hfits : e.fits .value = true ∨ e.fits .target = true) :
    ∃ u, e.LedBy s.receiver t u := by
  induction e using Expr.induction_children generalizing s t with
  | step e ih =>
  rcases e.beginning hfits with ⟨c, hc⟩ | ⟨w, hw⟩ | hword
  · obtain ⟨u, hu, hstarts⟩ := hc.exists_text h
    exact exists_led_of_part hc.lead_eq hstarts
      (ih c hc.mem_children (s := s.reading) hu (.inl (hc.fits hfits)))
  · obtain ⟨hne, hexposed⟩ := hw.exposed_iff
    exact exists_led_fixed hw.lead_eq h (hw.prefix_text h) hne hexposed
  · exact hword.led h

/-! ## Statements -/

/-- The expression that an expression statement or assignment starts
with. An assignment without a value is not written. -/
def Stmt.opening? : Stmt → Option Expr
  | .expression value => some value
  | .assignment left (some _) _ _ _ => some left
  | _ => none

/-- The opening of a well formed statement is a value or is assigned
to. -/
theorem Stmt.opening_fits {st : Stmt} (h : st.fits = true) (he : e ∈ st.opening?) :
    e.fits .value = true ∨ e.fits .target = true := by
  cases st with
  | expression value =>
    obtain rfl := Option.some.inj he
    simp only [Stmt.fits, Bool.and_eq_true] at h
    exact .inl h.1
  | assignment left right operator type loc =>
    cases right with
    | none => cases he
    | some right =>
      obtain rfl := Option.some.inj he
      simp only [Stmt.fits, Bool.and_eq_true] at h
      exact .inr h.1.1
  | _ => cases he

/-- What the lines of a statement with an opening are made from. -/
theorem emit_opening {st : Stmt} {f : Fragment} (hs : s.kind ≠ .classBody) (h : st.emit s = .ok f)
    (he : e ∈ st.opening?) :
    ∃ s' t rest, s'.receiver = s.receiver ∧ e.emit s' = .ok t ∧
      f.lines = statementLines (t ++ rest) := by
  cases st with
  | expression value =>
    obtain rfl := Option.some.inj he
    simp only [Stmt.emit, Result.bind_eq_ok, Result.pure_eq_ok] at h
    obtain ⟨t, ht, rfl⟩ := h
    exact ⟨s, t, "", rfl, ht, by rw [String.append_empty]; rfl⟩
  | assignment left right operator type loc =>
    cases right with
    | none => cases he
    | some right =>
      obtain rfl := Option.some.inj he
      rw [Stmt.emit, if_neg hs] at h
      obtain ⟨l, r, hl, -, rfl⟩ := emit_assignment h
      refine ⟨s.assigning, l, " " ++ operator ++ " " ++ r, rfl, hl, ?_⟩
      simp only [Fragment.ofLines, String.append_assoc]
  | _ => cases he

/-- **What a statement starts with**, of which `e` is the opening and
which is written on these lines under the receiver `r`. -/
def Expr.StartsLines (r : Option String) (e : Expr) (ls : List String) : Prop :=
  ∃ l rest s u, ls = l :: rest ∧ s.receiver = r ∧ e.lead.emit s = .ok u ∧ (u ≠ "" →
    (startsIn guarded u = true → startsIn [';'] l = true) ∧
    (startsIn hazards l = true ↔ e.lead.Exposed u))

theorem startsLines_of_emit {st : Stmt} {f : Fragment} (hs : s.kind ≠ .classBody)
    (h : st.emit s = .ok f) (hfits : st.fits = true) (he : e ∈ st.opening?) :
    e.StartsLines s.receiver f.lines := by
  obtain ⟨s', t, rest, hs', ht, hlines⟩ := emit_opening hs h he
  obtain ⟨u, ⟨s'', hs'', hu⟩, hstarts, hexposed⟩ := exists_led ht (Stmt.opening_fits hfits he)
  obtain ⟨l, ls, hl⟩ := List.exists_cons_of_ne_nil (lines_ne_nil
    (if startsIn guarded (t ++ rest) then ";" ++ (t ++ rest) else t ++ rest))
  rw [← statementLines_eq] at hl
  refine ⟨l, ls, s'', u, hlines.trans hl, hs''.trans hs', hu, fun hne => ?_⟩
  -- the leftmost part starts the text of the whole statement
  have hstart : ∀ cs, startsIn cs (t ++ rest) = startsIn cs u :=
    fun cs => startsIn_of_prefix_text (hstarts.trans (prefix_append t rest)) hne
  refine ⟨fun hguarded => semicolon_of_guarded hl (by rw [hstart, hguarded]), ?_⟩
  rw [startsIn_statementLines hl, hstart]
  exact hexposed hne

/-- **The statements of a module start as their leftmost parts do.** -/
def Program.StartsIn (p : Program) (blocks : List String) : Prop :=
  ∀ st ∈ p.body, ∀ (d : Nat) (s : Scope) (inner : Stmt) (e : Expr), st.Holds .top d s inner →
    s.kind ≠ .classBody → e ∈ inner.opening? →
    ∃ f g, st.emit .top = .ok f ∧ assemble f.lines ∈ blocks ∧ inner.emit s = .ok g ∧
      indent d g.lines <:+: indent 0 f.lines ∧ e.StartsLines s.receiver g.lines

/-- **Which statements start with a hazard.** Outside class bodies the
first line of an expression statement or assignment starts with a
semicolon if its leftmost part starts with `[` or `(`, and with a hazard
exactly if the part is exposed. -/
theorem statement_starts {file : String} {c : Cst} {p : Program} {blocks : List String}
    (hbuild : (c.build file).result = .ok p) (h : p.blocks = .ok blocks) : p.StartsIn blocks := by
  intro st hst d s inner e hholds hs he
  obtain ⟨rest, hrest, rfl⟩ := blocks_eq_ok.1 h
  obtain ⟨f, hf, hblocks⟩ := statementBlocks_mem hrest hst
  obtain ⟨g, hg, hlines⟩ := hholds.infix_lines hf
  have hstarts : e.StartsLines s.receiver g.lines :=
    startsLines_of_emit hs hg (hholds.fits (Cst.fits_of_build hbuild st hst)) he
  have hne : f.lines ≠ [] := by
    obtain ⟨l, ls, -, -, hg', -⟩ := hstarts
    exact ne_nil_of_infix_indent hlines (by simp [hg'])
  exact ⟨f, g, hf, List.mem_append_right _ (hblocks.subset (assemble_mem_blocks hne)), hg, hlines,
    hstarts⟩

/-! ## A sign and a parenthesis -/

/-- The statement `-c()`. -/
def signedCall : Stmt :=
  .expression (.unary .neg (.call (.reference "c" none none) [] none) none)

/-- The expression `(d).e()`. -/
def groupedCall : Expr :=
  .call (.member (.parenthesized (.reference "d" none none) none) (.reference "e" none none) none)
    [] none

/-- The assignment `a = b` and then the two statements. -/
def unguardedProgram : Program :=
  ⟨[.assignment (.reference "a" none none) (some (.reference "b" none none)) "=" none none,
    signedCall, .expression groupedCall], none⟩

/-- The tree of the program. -/
def unguardedTree : Cst :=
  let leaf (n : String) : Cst := .leaf .identifier n none
  let token (t : String) : Cst := .leaf (.token t) t none
  let call (callee : Cst) : Cst := .tree .call [callee, .tree .argumentList [] none] none
  let statement (c : Cst) : Cst := .tree .expressionStatement [c] none
  .tree .moduleRoot [
    statement (.tree .assignment [leaf "a", token "=", leaf "b"] none),
    statement (.tree .unaryOperator [token "-", call (leaf "c")] none),
    statement (call (.tree .memberAccess [.tree .parenthesizedExpression [leaf "d"] none,
      token ".", leaf "e"] none))] none

theorem build_unguardedTree : (unguardedTree.build "m").result = .ok unguardedProgram :=
  rfl

theorem blocks_unguardedProgram :
    unguardedProgram.blocks = .ok ["let a", "a = b", "-c()", ";(d).e()"] :=
  Result.eq_ok_of_toOption (by decide +kernel)

/-- The statement `(d).e()` starts with a parenthesis and so gets a
semicolon. -/
theorem statement_starts_grouped :
    (unguardedTree.build "m").result = .ok unguardedProgram ∧
    unguardedProgram.blocks = .ok ["let a", "a = b", "-c()", ";(d).e()"] ∧
    unguardedProgram.StartsIn ["let a", "a = b", "-c()", ";(d).e()"] ∧
    ∃ g l rest, (Stmt.expression groupedCall).emit .top = .ok g ∧ g.lines = l :: rest ∧
      startsIn [';'] l = true ∧ startsIn hazards l = false := by
  have hstarts := statement_starts build_unguardedTree blocks_unguardedProgram
  refine ⟨build_unguardedTree, blocks_unguardedProgram, hstarts, ?_⟩
  have hmem : .expression groupedCall ∈ unguardedProgram.body :=
    List.mem_cons_of_mem _ (List.mem_cons_of_mem _ (List.mem_singleton_self _))
  obtain ⟨f, g, -, -, hg, -, l, rest, s, u, hl, -, hu, hled⟩ :=
    hstarts _ hmem 0 .top _ groupedCall .self nofun rfl
  -- the leftmost part is `(d)`, whatever the scope
  obtain ⟨v, rfl⟩ : ∃ v, u = "(" ++ v := by
    have hlead : groupedCall.lead = .parenthesized (.reference "d" none none) none := rfl
    rw [hlead] at hu
    simp only [Expr.emit, Result.bind_eq_ok, Result.pure_eq_ok] at hu
    obtain ⟨v, -, rfl⟩ := hu
    exact ⟨v ++ ")", String.append_assoc ..⟩
  obtain ⟨hguard, hexposed⟩ := hled (by simp)
  refine ⟨g, l, rest, hg, hl, hguard ?_, Bool.eq_false_iff.2 fun hhazard => hexposed.1 hhazard⟩
  rw [startsIn_append _ _ (by decide)]
  decide

/-- **A sign continues the line before it.** The statement `-c()` stands
behind the assignment `a = b` and starts with its sign, without a
semicolon. -/
theorem sign_unguarded :
    (unguardedTree.build "m").result = .ok unguardedProgram ∧
    unguardedProgram.blocks = .ok ["let a", "a = b", "-c()", ";(d).e()"] ∧
    signedCall ∈ unguardedProgram.body ∧ signedCall.emit .top = .ok ⟨["-c()"], []⟩ ∧
    startsIn hazards "-c()" = true ∧ startsIn [';'] "-c()" = false :=
  ⟨build_unguardedTree, blocks_unguardedProgram,
    List.mem_cons_of_mem _ (List.mem_cons_self ..),
    Result.eq_ok_of_toOption (by decide +kernel), by decide, by decide⟩

end Scribe
