import Scribe.Proofs.Emit.Literals
import Scribe.Proofs.Emit.Placement
import Scribe.Proofs.Emit.WellNested.Expression

/-!
# The blocks are well nested

A statement opens its braces on one line and closes them on another, and
between these its lines are cut, indented and joined. Layout does not
change what lines do, so every statement is well nested as it stands
(`Stmt.writesNested`), and with it every block
(`blocks_well_nested`).

Only inside a chain of choices a brace is open from one part to the next:
`turns_choices` says what a part of the chain does, given that a brace is
open in front of it.
-/

namespace Scribe

open Text

variable {s : Scope} {e : Expr} {st : Stmt} {f : Fragment}

/-! ## Declarations -/

/-- The target of an assignment is one of its parts. -/
theorem mem_parts_of_left {left : Expr} (h : st.left? = some left) :
    (.target, left) ∈ st.parts := by
  obtain ⟨_, _, _, _, rfl⟩ | ⟨_, _, _, rfl⟩ := Stmt.left?_eq_some h
  · exact List.mem_cons_self ..
  · exact List.mem_cons_self ..

theorem mem_spellings_of_annotated {spelling : String} (h : st.annotation? = some spelling) :
    spelling ∈ st.spellings := by
  obtain ⟨_, _, _, _, rfl⟩ := Stmt.annotation?_eq_some h
  exact List.mem_singleton_self _

section Declarations

variable {receiver : Option String} {body : List Stmt} (hbody : ∀ st ∈ body, st.Bracketless s)

include hbody

/-- What a body records are names and types of its statements. -/
theorem wellNested_recorded {b : Binding} (hb : b ∈ recorded receiver body) :
    Text.Bracketless b.1 ∧ ∀ t ∈ b.2, WellNested t := by
  obtain ⟨st, hst, d, inner, hholds, ⟨left, name, splat, loc, hleft, hinside, hname⟩, htype⟩ :=
    exists_of_mem_recorded (s := s) hb
  obtain ⟨hwords, htypes⟩ := hbody st hst d s inner hholds
  constructor
  · have hsays : inner.Says name :=
      .inr ⟨_, mem_parts_of_left hleft, _, hinside, List.mem_singleton_self _⟩
    rw [hname]
    exact (hwords name hsays).camel
  · intro t ht
    obtain ⟨spelling, hspelling, hmapped⟩ := htype t ht
    exact wellNested_typeName (htypes spelling (.inl (mem_spellings_of_annotated hspelling)))
      hmapped

/-- **Declarations are well nested.** -/
theorem wellNested_declarations (receiver : Option String) (hfits : ∀ st ∈ body, st.fits = true)
    (passed : List Expr) : WellNested (unlines
      (declarations receiver (boundNames passed ++ declaredNames body) body)) := by
  have hlet : Text.Bracketless "let " := by decide
  obtain ⟨names, hnames, -, hlines⟩ := hoists_declarations receiver passed hfits
  refine .of_lines fun l hl => ?_
  rw [hlines] at hl
  obtain ⟨n, hn, rfl⟩ := List.mem_map.1 hl
  obtain ⟨c, hc, rfl⟩ := List.mem_map.1 ((hnames n).1 hn).1
  have hname := hlet.append (wellNested_recorded hbody hc).1
  cases htype : lastType (recorded receiver body) c.1 with
  | none => exact hname.wellNested
  | some t =>
    obtain ⟨c', hc', hct⟩ := exists_of_lastType htype
    exact wellNested_labelled hname (by decide) ((wellNested_recorded hbody hc').2 t hct)

end Declarations

/-! ## Statements -/

/-- **A fragment is well nested**: its lines together, and each block in
front of them. -/
structure Fragment.WellNested (f : Fragment) : Prop where
  lines : Text.WellNested (unlines f.lines)
  prologue : ∀ b ∈ f.prologue, Text.WellNested b

/-- Fragments that are well nested are so one behind the other. -/
theorem Fragment.WellNested.append {g : Fragment} (hf : f.WellNested) (hg : g.WellNested) :
    (f ++ g).WellNested :=
  ⟨hf.lines.unlines_append hg.lines,
    fun b hb => (List.mem_append.1 hb).elim (hf.prologue b) (hg.prologue b)⟩

theorem Fragment.wellNested_empty : Fragment.empty.WellNested :=
  ⟨rfl, nofun⟩

theorem Fragment.wellNested_ofLines {ls : List String} (h : Text.WellNested (unlines ls)) :
    (Fragment.ofLines ls).WellNested :=
  ⟨h, nofun⟩

theorem Fragment.wellNested_line {l : String} (h : Text.WellNested l) :
    (Fragment.ofLines [l]).WellNested := by
  rw [← unlines_singleton l] at h
  exact Fragment.wellNested_ofLines h

/-- A body is as well nested as its statements. -/
theorem wellNested_body {body : List Stmt} (h : Stmt.emitBody s body = .ok f)
    (hbody : ∀ st ∈ body, ∀ {g : Fragment}, st.emit s = .ok g → g.WellNested) :
    f.WellNested := by
  induction body generalizing f with
  | nil =>
    obtain rfl := Except.ok.inj h
    exact Fragment.wellNested_empty
  | cons a body ih =>
    simp only [Stmt.emitBody, Result.bind_eq_ok, Result.pure_eq_ok] at h
    obtain ⟨fa, ha, fb, hb, rfl⟩ := h
    exact (hbody a (List.mem_cons_self ..) ha).append
      (ih hb fun st hst => hbody st (List.mem_cons_of_mem _ hst))

theorem wellNested_members {body : List Stmt} (h : Stmt.emitMembers s body = .ok f)
    (hbody : ∀ st ∈ body, ∀ {g : Fragment}, st.emit s = .ok g → g.WellNested) :
    f.WellNested := by
  induction body generalizing f with
  | nil =>
    obtain rfl := Except.ok.inj h
    exact Fragment.wellNested_empty
  | cons a body ih =>
    simp only [Stmt.emitMembers] at h
    split at h
    · cases h
    · simp only [Result.bind_eq_ok, Result.pure_eq_ok] at h
      obtain ⟨fa, ha, fb, hb, rfl⟩ := h
      exact (hbody a (List.mem_cons_self ..) ha).append
        (ih hb fun st hst => hbody st (List.mem_cons_of_mem _ hst))

/-- The braces that are open in front of a choice. -/
def openBefore (first : Bool) : List Char :=
  if first then [] else ['\x7d']

/-- The opening line of a choice closes the brace before it and leaves
its own open. -/
theorem turns_choiceOpening {first : Bool} {test : Option String}
    (hfirst : test = none → first = false) (htest : ∀ t ∈ test, WellNested t) :
    Turns (openBefore first) (choiceOpening first test) ['\x7d'] := by
  cases test with
  | none =>
    obtain rfl := hfirst rfl
    exact fun _ => rfl
  | some t =>
    have hopen : Turns (openBefore first) (if first then "if (" else "\x7d else if (") [')'] := by
      cases first <;> exact fun _ => rfl
    have hclose : Turns [')'] ") \x7b" ['\x7d'] := fun _ => rfl
    exact (hopen.append ((htest t rfl).turns _)).append hclose

/-- **A part of a chain of choices** closes the brace that is open in
front of it, if there is one, and leaves the brace of its last choice
open. -/
theorem turns_choices {choices : List Choice} {loc : Option Location} {first : Bool}
    (h : Stmt.emitChoices s loc first choices = .ok f) (hne : first = true → choices ≠ [])
    (hchoices : ∀ test body, Choice.mk test body ∈ choices → (∀ e ∈ test, e.Bracketless) ∧
      ∀ {b : Fragment}, Stmt.emitBody s body = .ok b → b.WellNested) :
    Turns (openBefore first) (unlines f.lines) ['\x7d'] ∧ ∀ b ∈ f.prologue, WellNested b := by
  induction choices generalizing first f with
  | nil =>
    obtain rfl := Except.ok.inj h
    cases first with
    | true => exact absurd rfl (hne rfl)
    | false => exact ⟨fun _ => rfl, nofun⟩
  | cons c choices ih =>
    obtain ⟨test, body⟩ := c
    simp only [Stmt.emitChoices, Result.bind_eq_ok, Result.pure_eq_ok] at h
    obtain ⟨a, ha, rest, hrest, rfl⟩ := h
    obtain ⟨t, b, hfirst, ht, hb, rfl⟩ := emit_choice ha
    obtain ⟨htest, hbody⟩ := hchoices test body (List.mem_cons_self ..)
    obtain ⟨hlines, hprologue⟩ := ih hrest (fun hlater => absurd hlater Bool.false_ne_true)
      fun test body hc => hchoices test body (List.mem_cons_of_mem _ hc)
    -- a choice without a test was refused if it is the first
    have hopening : Turns (openBefore first) (choiceOpening first t) ['\x7d'] := by
      refine turns_choiceOpening (fun hnone => hfirst ?_) fun u hu => ?_
      · cases test with
        | none => rfl
        | some e =>
          obtain ⟨u, hu, -⟩ := emitOption_mem ht rfl
          rw [hnone] at hu
          cases hu
      · obtain ⟨e, he, heu⟩ := exists_of_mem_emitOption ht hu
        exact wellNested_emit heu (htest e he)
    refine ⟨?_, fun d hd => ?_⟩
    · exact (hopening.unlines_cons (((hbody hb).lines.indent 1).turns _)).unlines_append hlines
    · exact (List.mem_append.1 hd).elim ((hbody hb).prologue d) (hprologue d)

/-- The name of an alias is made of the names of a function and a class. -/
theorem bracketless_optionsName {name : String} (hs : ∀ c ∈ s.className, Text.Bracketless c)
    (hname : Text.Bracketless name) : Text.Bracketless (s.optionsName name) := by
  have hsuffix : Text.Bracketless "Options" := by decide
  unfold Scope.optionsName
  split
  · rename_i className _ hclass
    have hclassName := (hs className hclass).pascal
    split
    · exact hclassName.append hsuffix
    · exact (hclassName.append hname.pascal).append hsuffix
  · exact hname.pascal.append hsuffix

/-- The opening line of a function leaves its brace open. -/
theorem turns_functionHeader (s : Scope) (decorators : List String) {name returns : String}
    {texts : List String} (hname : Text.Bracketless name) (htexts : ∀ t ∈ texts, WellNested t)
    (hreturns : WellNested returns) :
    Turns [] (s.functionHeader name decorators texts returns) ['\x7d'] := by
  have hsignature : WellNested ("(" ++ ", ".intercalate texts ++ ")") :=
    (wellNested_commas htexts).between (b := [')']) (fun _ => rfl) fun _ => rfl
  have hopen : Turns [] " \x7b" ['\x7d'] := fun _ => rfl
  simp only [Scope.functionHeader]
  split
  · have hword : WellNested "constructor" := rfl
    exact (hword.append hsignature).opens hopen
  · split
    · have hstatic : WellNested (if isStatic decorators then "static " else "") := by
        split <;> rfl
      exact (((hstatic.append hname.property.wellNested).append hsignature).append
        hreturns).opens hopen
    · have hword : WellNested "function " := rfl
      exact (((hword.append hname.camel.wellNested).append hsignature).append
        hreturns).opens hopen

/-- Behind the parameters stands the type that is returned, if any. -/
theorem wellNested_returns {isConstructor : Bool} {returnType : Option String} {returns : String}
    (h : returnsText isConstructor returnType = .ok returns)
    (htype : ∀ t ∈ returnType, TypeName.Spelling t.toList) : WellNested returns := by
  unfold returnsText at h
  split at h
  · obtain rfl := Except.ok.inj h
    rfl
  · split at h
    · obtain rfl := Except.ok.inj h
      rfl
    · simp only [Result.bind_eq_ok, Result.pure_eq_ok] at h
      obtain ⟨u, hu, rfl⟩ := h
      have hcolon : WellNested ": " := rfl
      exact hcolon.append (wellNested_typeName (htype _ rfl) hu)

theorem wellNested_decoratorLines {decorators : List String}
    (h : ∀ d ∈ decorators, Text.Bracketless d) :
    WellNested (unlines (decoratorLines decorators)) := by
  have hmark : Text.Bracketless "// " := by decide
  refine .of_lines fun l hl => ?_
  obtain ⟨d, hd, rfl⟩ := List.mem_map.1 hl
  exact (hmark.append (h d hd)).wellNested

theorem wellNested_base {arguments : Option (List Expr)} {base : String}
    (h : extendsText s arguments = .ok base) (harguments : ∀ a ∈ arguments.getD [], a.Bracketless) :
    WellNested base := by
  simp only [extendsText, Result.bind_eq_ok] at h
  obtain ⟨kept, hkept, h⟩ := h
  have hbases : ∀ b ∈ kept, b.Bracketless := by
    intro b hb
    rw [(decides_keptBases _).2 kept hkept] at hb
    exact harguments b (List.mem_filter.1 hb).1
  split at h
  · obtain rfl := Result.pure_eq_ok.1 h
    rfl
  · simp only [Result.bind_eq_ok, Result.pure_eq_ok] at h
    obtain ⟨u, hu, rfl⟩ := h
    have hword : WellNested " extends " := rfl
    exact hword.append (wellNested_emit hu (hbases _ (List.mem_singleton_self _)))
  · cases h

/-- A field is written as its name, its type and its value. -/
theorem wellNested_field {left : Expr} {right : Option Expr} {operator : String}
    {type : Option String} (h : emitField s left right operator type = .ok f)
    (hleft : left.Bracketless) (hright : ∀ e ∈ right, e.Bracketless)
    (htype : ∀ t ∈ type, TypeName.Spelling t.toList) : f.WellNested := by
  have hcolon : WellNested ": " := rfl
  have hequals : WellNested " = " := rfl
  obtain ⟨name, splat, loc, t, v, rfl, ht, hv, rfl⟩ := emit_field h
  have hname := (hleft.word (List.mem_singleton_self _)).property.wellNested
  have htypeText : WellNested t := by
    unfold fieldType at ht
    split at ht
    · obtain rfl := Except.ok.inj ht
      rfl
    · split at ht
      · obtain rfl := Except.ok.inj ht
        rfl
      · obtain ⟨u, hu, rfl⟩ := Result.map_eq_ok.1 ht
        exact hcolon.append (wellNested_typeName (htype _ rfl) hu)
  have hvalue : WellNested v := by
    unfold fieldValue at hv
    split at hv
    · obtain rfl := Except.ok.inj hv
      rfl
    · obtain ⟨u, hu, rfl⟩ := Result.map_eq_ok.1 hv
      exact hequals.append (wellNested_emit hu (hright _ rfl))
  refine Fragment.wellNested_ofLines ?_
  rw [unlines_lines]
  exact (hname.append htypeText).append hvalue

theorem wellNested_assignment {left : Expr} {right : Option Expr} {operator : String}
    {type : Option String} (h : emitAssignment s left right operator type = .ok f)
    (hleft : left.Bracketless) (hright : ∀ e ∈ right, e.Bracketless)
    (hoperator : operator ∈ assignmentOperators) : f.WellNested := by
  rw [emitAssignment_eq] at h
  obtain ⟨_, -, h⟩ := Result.bind_eq_ok.1 h
  unfold assignedText at h
  split at h
  · obtain rfl := Result.pure_eq_ok.1 h
    exact Fragment.wellNested_empty
  · simp only [Result.bind_eq_ok, Result.pure_eq_ok] at h
    obtain ⟨l, hl, r, hr, rfl⟩ := h
    have hoperators : ∀ o ∈ assignmentOperators, Text.Bracketless o := by decide
    have hblank : WellNested " " := rfl
    have hsides := (wellNested_emit hl hleft).append hblank
    exact Fragment.wellNested_ofLines (wellNested_statementLines
      (((hsides.append (hoperators _ hoperator).wellNested).append hblank).append
        (wellNested_emit hr (hright _ rfl))))

theorem wellNested_return {value : Option Expr} (h : emitReturn s value = .ok f)
    (hvalue : ∀ e ∈ value, e.Bracketless) : f.WellNested := by
  unfold emitReturn at h
  split at h
  · obtain rfl := Result.pure_eq_ok.1 h
    exact Fragment.wellNested_line rfl
  · obtain ⟨t, ht, h⟩ := Result.bind_eq_ok.1 h
    have htext := wellNested_emit ht (hvalue _ rfl)
    rw [← unlines_lines t] at htext
    split at h
    · rename_i line hline
      obtain rfl := Result.pure_eq_ok.1 h
      rw [hline] at htext
      have hword : WellNested "return " := rfl
      rw [unlines_singleton] at htext
      exact Fragment.wellNested_line (hword.append htext)
    · obtain rfl := Result.pure_eq_ok.1 h
      have hopen : Turns [] "return (" [')'] := fun _ => rfl
      have hclose : Turns [')'] (unlines [")"]) [] := fun _ => rfl
      exact Fragment.wellNested_ofLines (wellNested_iff.2
        ((hopen.unlines_cons ((htext.indent 1).turns _)).unlines_append hclose))

theorem wellNested_raise (h : emitRaise s e = .ok f) (he : e.Bracketless) : f.WellNested := by
  have hword : WellNested "throw new " := rfl
  have hcall : WellNested "()" := rfl
  simp only [emitRaise, Result.bind_eq_ok] at h
  obtain ⟨t, ht, h⟩ := h
  have htext := hword.append (wellNested_emit ht he)
  split at h
  · obtain rfl := Result.pure_eq_ok.1 h
    refine Fragment.wellNested_ofLines ?_
    rwa [unlines_lines]
  · obtain rfl := Result.pure_eq_ok.1 h
    exact Fragment.wellNested_line (htext.append hcall)
  · obtain rfl := Result.pure_eq_ok.1 h
    exact Fragment.wellNested_line (htext.append hcall)
  · cases h

/-- **What the statement writes is well nested**, wherever it stands. -/
def Stmt.WritesNested (st : Stmt) : Prop :=
  ∀ s f, st.emit s = .ok f → st.Bracketless s → (∀ c ∈ s.className, Text.Bracketless c) →
    st.fits = true → f.WellNested

namespace Stmt

variable {body : List Stmt} {loc : Option Location}

/-- The header of a function opens a brace that the last line closes. The
declarations and the body stand in between, the options alias in front. -/
theorem writesNested_function {name : String} {parameters : List Expr}
    {returnType : Option String} {decorators : List String} (ih : ∀ st ∈ body, st.WritesNested) :
    (function name parameters body returnType decorators loc).WritesNested := by
  intro s f h hst hs hfits
  simp only [Stmt.fits, Bool.and_eq_true, Stmt.allFit_iff] at hfits
  obtain ⟨slots, texts, definition, b, returns, hslots, hparams, hb, hreturns, rfl⟩ :=
    emit_function h
  have hname : Text.Bracketless name := hst.word (List.mem_cons_self ..)
  have hslotsNested : ∀ slot ∈ slots, slot.WellNested := by
    intro slot hslot
    obtain ⟨p, hp, u, hu, hof⟩ := exists_of_mem_slots hslots hslot
    have hparameter := hst.part (List.mem_map_of_mem (mem_of_mem_passed hp))
    exact wellNested_slot hof hparameter (wellNested_emit hu hparameter)
  have halias : ∀ n ∈ some (s.optionsName name), Text.Bracketless n := by
    rintro n ⟨⟩
    exact bracketless_optionsName hs hname
  obtain ⟨htexts, hdefinition⟩ := wellNested_parameters hslotsNested halias hparams
  have hbodyless : ∀ st ∈ body,
      st.Bracketless (s.enterFunction (s.receiverInside decorators parameters)) :=
    fun st hmem => hst.inner (List.mem_map_of_mem hmem)
  have hbody : b.WellNested := wellNested_body hb fun st hmem _ hg =>
    ih st hmem _ _ hg (hbodyless st hmem) hs (hfits.2 st hmem)
  have hheader := turns_functionHeader s decorators hname htexts
    (wellNested_returns hreturns fun t ht => hst.spelling (Option.mem_toList.2 ht))
  have hlets := wellNested_declarations hbodyless (s.receiverInside decorators parameters)
    hfits.2 (s.passed decorators parameters)
  have hdecorators := wellNested_decoratorLines fun d hd => hst.word (List.mem_cons_of_mem _ hd)
  refine ⟨hdecorators.unlines_append
    (wellNested_braced hheader (hlets.unlines_append hbody.lines)), fun d hd => ?_⟩
  rcases List.mem_append.1 hd with hd | hd
  · exact hdefinition d (Option.mem_toList.1 hd)
  · exact hbody.prologue d hd

/-- The members of a class are written under its name, which has no brackets
either. -/
theorem writesNested_classDefinition {name : String} {arguments : Option (List Expr)}
    {decorators : List String} (ih : ∀ st ∈ body, st.WritesNested) :
    (classDefinition name body arguments decorators loc).WritesNested := by
  intro s f h hst hs hfits
  simp only [Stmt.fits, Bool.and_eq_true, Stmt.allFit_iff] at hfits
  obtain ⟨base, b, hbase, hb, rfl⟩ := emit_class h
  have hname : Text.Bracketless name := hst.word (List.mem_cons_self ..)
  have hentered : ∀ c ∈ (s.enterClass name).className, Text.Bracketless c := by
    rintro c ⟨⟩
    exact hname
  have hbody : b.WellNested := wellNested_members hb fun st hmem _ hg =>
    ih st hmem _ _ hg (hst.inner (List.mem_map_of_mem hmem)) hentered (hfits.2 st hmem)
  have hbaseNested := wellNested_base hbase fun a ha => hst.part (List.mem_map_of_mem ha)
  have hword : WellNested "class " := rfl
  have hopen : Turns [] " \x7b" ['\x7d'] := fun _ => rfl
  have hheader := ((hword.append hname.pascal.wellNested).append hbaseNested).opens hopen
  have hdecorators := wellNested_decoratorLines fun d hd => hst.word (List.mem_cons_of_mem _ hd)
  exact ⟨hdecorators.unlines_append (wellNested_braced hheader hbody.lines), hbody.prologue⟩

/-- Each choice closes the brace of the one before it, and the last line the
brace of the last one. -/
theorem writesNested_conditional {choices : List Choice}
    (ih : ∀ test body, Choice.mk test body ∈ choices → ∀ st ∈ body, st.WritesNested) :
    (conditional choices loc).WritesNested := by
  intro s f h hst hs hfits
  simp only [Stmt.fits, Bool.and_eq_true, Choice.allFit_iff] at hfits
  obtain ⟨c, hc, rfl⟩ := emit_conditional h
  have hclose : Turns ['\x7d'] (unlines ["\x7d"]) [] := fun _ => rfl
  obtain ⟨hlines, hprologue⟩ := turns_choices hc (fun _ => by simpa using hfits.1)
    fun test body hmem => by
      refine ⟨?_, fun hb => ?_⟩
      · rintro e rfl
        exact hst.part (List.mem_map_of_mem (Choice.mem_tests.2 ⟨body, hmem⟩))
      · have hchoice := hfits.2 _ hmem
        simp only [Choice.fits, Bool.and_eq_true, Stmt.allFit_iff] at hchoice
        exact wellNested_body hb fun st hst' _ hg => ih test body hmem st hst' _ _ hg
          (hst.inner (List.mem_map_of_mem (Choice.mem_bodies.2 ⟨test, body, hmem, hst'⟩))) hs
          (hchoice.2 st hst')
  exact ⟨wellNested_iff.2 (hlines.unlines_append hclose), hprologue⟩

/-- The body of a loop stands between braces. -/
theorem writesNested_forLoop {left right : Expr} (ih : ∀ st ∈ body, st.WritesNested) :
    (forLoop left right body loc).WritesNested := by
  intro s f h hst hs hfits
  simp only [Stmt.fits, Bool.and_eq_true, Stmt.allFit_iff] at hfits
  obtain ⟨l, r, b, hl, hr, hb, rfl⟩ := emit_forLoop h
  have hleft := wellNested_emit hl (hst.part (List.mem_cons_self ..))
  have hright := wellNested_emit hr
    (hst.part (List.mem_cons_of_mem _ (List.mem_singleton_self _)))
  have hbody : b.WellNested := wellNested_body hb fun st hmem _ hg =>
    ih st hmem _ _ hg (hst.inner (List.mem_map_of_mem hmem)) hs (hfits.2 st hmem)
  have hopen : Turns [] "for (" [')'] := fun _ => rfl
  have hof : Text.WellNested " of " := rfl
  have hclose : Turns [')'] ") \x7b" ['\x7d'] := fun _ => rfl
  have hheader := (((hopen.append (hleft.turns _)).append (hof.turns _)).append
    (hright.turns _)).append hclose
  exact ⟨wellNested_braced hheader hbody.lines, hbody.prologue⟩

theorem writesNested_whileLoop {test : Expr} (ih : ∀ st ∈ body, st.WritesNested) :
    (whileLoop test body loc).WritesNested := by
  intro s f h hst hs hfits
  simp only [Stmt.fits, Bool.and_eq_true, Stmt.allFit_iff] at hfits
  obtain ⟨t, b, ht, hb, rfl⟩ := emit_whileLoop h
  have htest := wellNested_emit ht (hst.part (List.mem_singleton_self _))
  have hbody : b.WellNested := wellNested_body hb fun st hmem _ hg =>
    ih st hmem _ _ hg (hst.inner (List.mem_map_of_mem hmem)) hs (hfits.2 st hmem)
  have hopen : Turns [] "while (" [')'] := fun _ => rfl
  have hclose : Turns [')'] ") \x7b" ['\x7d'] := fun _ => rfl
  exact ⟨wellNested_braced ((hopen.append (htest.turns _)).append hclose) hbody.lines,
    hbody.prologue⟩

end Stmt

/-- **What every statement writes is well nested.** -/
theorem Stmt.writesNested (st : Stmt) : st.WritesNested := by
  induction st using Stmt.induction with
  | expression value =>
    intro s f h hst _ _
    simp only [Stmt.emit, Result.bind_eq_ok, Result.pure_eq_ok] at h
    obtain ⟨t, ht, rfl⟩ := h
    exact Fragment.wellNested_ofLines (wellNested_statementLines
      (wellNested_emit ht (hst.part (List.mem_singleton_self _))))
  | assignment left right operator type loc =>
    intro s f h hst _ hfits
    have hleft := hst.part (List.mem_cons_self ..)
    have hright : ∀ e ∈ right, e.Bracketless := fun e he =>
      hst.part (List.mem_cons_of_mem _ (List.mem_map_of_mem (Option.mem_toList.2 he)))
    simp only [Stmt.emit] at h
    split at h
    · exact wellNested_field h hleft hright fun t ht => hst.spelling (Option.mem_toList.2 ht)
    · simp only [Stmt.fits, Bool.and_eq_true, List.contains_iff_mem] at hfits
      exact wellNested_assignment h hleft hright hfits.2
  | function _ _ _ _ _ _ ih => exact writesNested_function ih
  | classDefinition _ _ _ _ _ ih => exact writesNested_classDefinition ih
  | conditional _ _ ih => exact writesNested_conditional ih
  | forLoop _ _ _ _ ih => exact writesNested_forLoop ih
  | whileLoop _ _ _ ih => exact writesNested_whileLoop ih
  | returning value loc =>
    intro s f h hst _ _
    simp only [Stmt.emit] at h
    exact wellNested_return h fun e he => hst.part (List.mem_map_of_mem (Option.mem_toList.2 he))
  | raising value loc =>
    intro s f h hst _ _
    simp only [Stmt.emit] at h
    exact wellNested_raise h (hst.part (List.mem_singleton_self _))
  | simple kind loc =>
    intro s f h _ _ _
    obtain rfl := Except.ok.inj h
    cases kind with
    | pass => exact Fragment.wellNested_empty
    | _ => exact Fragment.wellNested_line rfl
  | comment text loc =>
    intro s f h hst _ _
    obtain rfl := Except.ok.inj h
    exact Fragment.wellNested_ofLines (.of_lines fun l hl =>
      (bracketless_commentLines (hst.word (List.mem_singleton_self _)) l hl).wellNested)

/-! ## Blocks -/

theorem wellNested_statementBlocks {body : List Stmt} {blocks : List String}
    (h : statementBlocks body = .ok blocks) (hbody : ∀ st ∈ body, st.Bracketless .top)
    (hfits : ∀ st ∈ body, st.fits = true) : ∀ b ∈ blocks, WellNested b := by
  induction body generalizing blocks with
  | nil =>
    obtain rfl := Except.ok.inj h
    nofun
  | cons a body ih =>
    simp only [statementBlocks, Result.bind_eq_ok, Result.pure_eq_ok] at h
    obtain ⟨f, hf, rest, hrest, rfl⟩ := h
    have hclass : ∀ c ∈ Scope.top.className, Text.Bracketless c := by rintro c ⟨⟩
    have hnested := a.writesNested .top f hf (hbody a (List.mem_cons_self ..)) hclass
      (hfits a (List.mem_cons_self ..))
    intro b hb
    rcases List.mem_append.1 hb with hb | hb
    · rcases List.mem_append.1 hb with hb | hb
      · obtain ⟨d, hd, rfl⟩ := List.mem_map.1 hb
        have hblock := hnested.prologue d hd
        rw [← unlines_singleton d] at hblock
        exact wellNested_assemble hblock
      · split at hb
        · cases hb
        · rw [List.mem_singleton.1 hb]
          exact wellNested_assemble hnested.lines
    · exact ih hrest (fun st hst => hbody st (List.mem_cons_of_mem _ hst))
        (fun st hst => hfits st (List.mem_cons_of_mem _ hst)) b hb

/-- **The blocks are well nested**: the declarations in front, the
options aliases and the statements of every program that was built and
has brackets in its types only. -/
theorem blocks_well_nested {file : String} {tree : Cst} {p : Program} {blocks : List String}
    (hbuild : (tree.build file).result = .ok p) (hp : p.Bracketless TypeName.isNameChar)
    (h : p.blocks = .ok blocks) : ∀ b ∈ blocks, WellNested b := by
  have hfits := Cst.fits_of_build hbuild
  have hbody := Program.bracketless_iff.1 hp
  obtain ⟨rest, hrest, rfl⟩ := blocks_eq_ok.1 h
  intro b hb
  rcases List.mem_append.1 hb with hb | hb
  · unfold declarationBlock at hb
    split at hb
    · cases hb
    · rw [List.mem_singleton.1 hb]
      exact wellNested_declarations hbody none hfits []
  · exact wellNested_statementBlocks hrest hbody hfits b hb

/-- A function with a generic type, an options alias and two choices. -/
def pickTree : Cst :=
  let name (n : String) : Cst := .leaf .identifier n none
  let token (t : String) : Cst := .leaf (.token t) t none
  let returned (value : Cst) : Cst := .tree .block [.tree .returnStatement [value] none] none
  .tree .moduleRoot [.tree .functionDefinition [name "pick",
    .tree .parameters [
      .tree .typedParameter [name "rows", token ":", .leaf .type "list[b.Row] | None" none] none,
      .tree .typedDefaultParameter [name "n", token ":", .leaf .type "int" none, token "=",
        .leaf .integer "1" none] none] none,
    .tree .block [.tree .ifStatement [name "rows", returned (name "rows"),
      .tree .elseClause [returned (.tree .parenthesizedExpression [name "n"] none)] none] none]
      none] none] none

/-- The function of the tree. -/
def pickFunction : Stmt :=
  .function "pick" [.typedParameter "rows" "list[b.Row] | None" none none,
      .typedDefaultParameter "n" "int" (.number .integer "1" none) none]
    [.conditional [.mk (some (.reference "rows" none none))
        [.returning (some (.reference "rows" none none)) none],
      .mk none [.returning (some (.parenthesized (.reference "n" none none) none)) none]] none]
    none [] none

/-- The blocks of the function. -/
def pickBlocks : List String :=
  ["type PickOptions = \x7b n?: number \x7d",
    "function pick(rows: Array<Row> | null, \x7b n = 1 \x7d: PickOptions = \x7b\x7d) \x7b\n"
      ++ "  if (rows) \x7b\n    return rows\n  \x7d else \x7b\n    return (n)\n  \x7d\n\x7d"]

/-- A union of a list and nothing is spelled by the grammar. -/
theorem spelling_rows : TypeName.Spelling "list[b.Row] | None".toList := by
  have hlist : TypeName.Spelling "list[b.Row] ".toList :=
    @TypeName.SpelledWith.generic _ [] "list".toList " ".toList ["b.Row".toList] nofun (by decide)
      (List.all_eq_true.1 (by decide +kernel))
      (List.forall_mem_singleton.2 (.name (List.all_eq_true.1 (by decide +kernel))))
      (List.all_eq_true.1 (by decide +kernel))
  have hnone : TypeName.Spelling " None".toList := .name (List.all_eq_true.1 (by decide +kernel))
  exact .union hlist hnone

theorem bracketless_pick : Program.Bracketless TypeName.isNameChar ⟨[pickFunction], none⟩ := by
  have hname : ∀ n, Text.Bracketless n → (Expr.reference n none none).Bracketless :=
    fun n hn => Expr.bracketless_iff.2 ⟨⟨List.forall_mem_singleton.2 hn, nofun⟩, nofun⟩
  have hrows := hname "rows" (by decide)
  have hrowsParameter : (Expr.typedParameter "rows" "list[b.Row] | None" none none).Bracketless :=
    Expr.bracketless_iff.2 ⟨⟨by decide, List.forall_mem_singleton.2 spelling_rows⟩, nofun⟩
  have hone : (Expr.number .integer "1" none).Bracketless :=
    Expr.bracketless_iff.2 ⟨⟨by decide, nofun⟩, nofun⟩
  have hint : TypeName.Spelling "int".toList := .name (List.all_eq_true.1 (by decide +kernel))
  have hnParameter : (Expr.typedDefaultParameter "n" "int" (.number .integer "1" none)
      none).Bracketless :=
    Expr.bracketless_iff.2 ⟨⟨by decide, List.forall_mem_singleton.2 hint⟩,
      List.forall_mem_singleton.2 hone⟩
  have hgrouped : (Expr.parenthesized (.reference "n" none none) none).Bracketless :=
    Expr.bracketless_iff.2 ⟨⟨nofun, nofun⟩, List.forall_mem_singleton.2 (hname "n" (by decide))⟩
  have hreturn : ∀ (s : Scope) (e : Expr), e.Bracketless →
      (Stmt.returning (some e) none).Bracketless s :=
    fun s e he => Stmt.bracketless_iff.2 ⟨⟨nofun, nofun⟩, List.forall_mem_singleton.2 he, nofun⟩
  refine Program.bracketless_iff.2 (List.forall_mem_singleton.2 ?_)
  refine Stmt.bracketless_iff.2 ⟨⟨by decide, nofun⟩, List.forall_mem_cons.2 ⟨hrowsParameter,
    List.forall_mem_singleton.2 hnParameter⟩, List.forall_mem_singleton.2 ?_⟩
  exact Stmt.bracketless_iff.2 ⟨⟨nofun, nofun⟩, List.forall_mem_singleton.2 hrows,
    List.forall_mem_cons.2 ⟨hreturn _ _ hrows, List.forall_mem_singleton.2 (hreturn _ _ hgrouped)⟩⟩

/-- The alias and the function of the tree above are well nested. -/
theorem blocks_well_nested_pick :
    (pickTree.build "m").result = .ok ⟨[pickFunction], none⟩ ∧
    Program.Bracketless TypeName.isNameChar ⟨[pickFunction], none⟩ ∧
    Program.blocks ⟨[pickFunction], none⟩ = .ok pickBlocks ∧
    ∀ b ∈ pickBlocks, WellNested b := by
  have hbuild : (pickTree.build "m").result = .ok ⟨[pickFunction], none⟩ := rfl
  have hblocks : Program.blocks ⟨[pickFunction], none⟩ = .ok pickBlocks :=
    Result.eq_ok_of_toOption (by decide +kernel)
  exact ⟨hbuild, bracketless_pick, hblocks, blocks_well_nested hbuild bracketless_pick hblocks⟩

/-- An annotated name whose type has a vowel sign in front of its
bracket. -/
def signTree : Cst :=
  let name (n : String) : Cst := .leaf .identifier n none
  let token (t : String) : Cst := .leaf (.token t) t none
  .tree .moduleRoot [.tree .expressionStatement [.tree .assignment [name "x", token ":",
    .leaf .type "\u0915\u093f[a.Foo]" none, token "=", .leaf .integer "1" none] none] none] none

/-- The assignment of the tree. -/
def signAssignment : Stmt :=
  .assignment (.reference "x" none none) (some (.number .integer "1" none)) "="
    (some "\u0915\u093f[a.Foo]") none

theorem spelledWith_sign :
    TypeName.SpelledWith (fun c => !isBlank c && TypeName.isPlain c) "\u0915\u093f[a.Foo]".toList :=
  @TypeName.SpelledWith.generic _ [] "\u0915\u093f".toList [] ["a.Foo".toList] nofun (by decide)
    (List.all_eq_true.1 (by decide +kernel))
    (List.forall_mem_singleton.2 (.name (List.all_eq_true.1 (by decide +kernel)))) nofun

theorem bracketless_sign : Program.Bracketless (fun c => !isBlank c && TypeName.isPlain c)
    ⟨[signAssignment], none⟩ := by
  have hhas : ∀ st, Program.Has ⟨[signAssignment], none⟩ st → st = signAssignment := by
    rintro st ⟨outer, houter, d, s, hin⟩
    obtain rfl := List.mem_singleton.1 houter
    cases hin
    rfl
  have hparts : ∀ q ∈ signAssignment.parts, ∀ x, Expr.Inside x q.2 →
      (∀ w ∈ x.words, Text.Bracketless w) ∧ x.spellings = [] :=
    List.forall_mem_cons.2 ⟨forall_inside (by decide) nofun,
      List.forall_mem_singleton.2 (forall_inside (by decide) nofun)⟩
  refine ⟨?_, ?_⟩
  · rintro w ⟨st, hst, hw | ⟨q, hq, x, hx, hw⟩⟩
    · cases hhas st hst ▸ hw
    · exact (hparts q (hhas st hst ▸ hq) x hx).1 w hw
  · rintro t ⟨st, hst, ht | ⟨q, hq, x, hx, ht⟩⟩
    · obtain rfl := hhas st hst
      exact List.mem_singleton.1 ht ▸ spelledWith_sign
    · cases (hparts q (hhas st hst ▸ hq) x hx).2 ▸ ht

/-- **A bracket behind another character is not seen.** The vowel sign
above is part of a name, but the scan does not know it: the whole
spelling is taken for a name, and what follows its last dot is written,
with the bracket that closes it. -/
theorem sign_not_well_nested :
    (signTree.build "m").result = .ok ⟨[signAssignment], none⟩ ∧
    Program.Bracketless (fun c => !isBlank c && TypeName.isPlain c) ⟨[signAssignment], none⟩ ∧
    Program.blocks ⟨[signAssignment], none⟩ = .ok ["let x: Foo]", "x = 1"] ∧
    ¬ WellNested "let x: Foo]" :=
  ⟨rfl, bracketless_sign, Result.eq_ok_of_toOption (by decide +kernel), by decide +kernel⟩

end Scribe
