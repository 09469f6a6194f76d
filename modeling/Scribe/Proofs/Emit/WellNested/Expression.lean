import Scribe.Proofs.Emit.Signature
import Scribe.Proofs.Syntax.Bracketless
import Scribe.Proofs.Text.Literal

/-!
# Expressions are well nested

Brackets come into the text of an expression in two ways: the writer
puts them, in pairs, or they stand in the texts that the expression
carries. If these are bracketless and the types in it are spelled, the
text is well nested (`wellNested_emit`), and so are the parameters of a
function and its options alias (`wellNested_parameters`).
-/

namespace Scribe

open Text

variable {s : Scope} {e : Expr} {t : String}

/-! ## Literals and comments -/

/-- Writing a literal puts no bracket into it. -/
theorem bracketless_written {text : String} (h : Text.Bracketless text) :
    Text.Bracketless (Literal.written text) := by
  refine h.of_mem fun x hmem hx => ?_
  rcases mem_written_cases hmem with rfl | rfl | rfl | hmem
  · exact absurd hx (by decide)
  · exact absurd hx (by decide)
  · exact absurd hx (by decide)
  · exact hmem

theorem bracketless_commentLines {text : String} (h : Text.Bracketless text) :
    ∀ l ∈ Literal.commentLines text, Text.Bracketless l := by
  intro l hl
  refine h.of_mem fun x hmem hx => ?_
  refine (mem_of_mem_commentLines hl hmem).resolve_left fun hmark => ?_
  have hmarks : ['/', '*', ' ', '\\', '\n'].all (!isBracket ·) = true := by decide
  have hfree := List.all_eq_true.1 hmarks x hmark
  rw [hx] at hfree
  cases hfree

/-! ## Arguments and parameters -/

/-- Texts in a row with commas. -/
theorem wellNested_commas {ts : List String} (h : ∀ t ∈ ts, WellNested t) :
    WellNested (", ".intercalate ts) :=
  .intercalate (by decide) h

theorem wellNested_argumentList {arguments : List (Expr × String)}
    (h : ∀ a ∈ arguments, WellNested a.2) : ∀ t ∈ argumentList arguments, WellNested t := by
  have hpart : ∀ {P : Expr × String → Bool}, ∀ t ∈ (arguments.filter P).map (·.2),
      WellNested t := by
    intro P t ht
    obtain ⟨a, ha, rfl⟩ := List.mem_map.1 ht
    exact h a (List.mem_filter.1 ha).1
  intro t ht
  rcases List.mem_append.1 ht with ht | ht
  · exact hpart t ht
  · split at ht
    · cases ht
    · rw [List.mem_singleton.1 ht]
      exact (wellNested_commas hpart).between (b := ['\x7d']) (fun _ => rfl) fun _ => rfl

/-- What is written of the slot is well nested. -/
def Slot.WellNested : Slot → Prop
  | .positional text => Text.WellNested text
  | .rest text => Text.WellNested text
  | .option o => Text.WellNested o.key ∧ Text.WellNested o.text ∧ ∀ t ∈ o.type, Text.WellNested t
  | .keywords name type => Text.Bracketless name ∧ ∀ t ∈ type, TypeName.Spelling t.toList

/-- A slot is made of the name, the type and the default of its parameter. -/
theorem wellNested_slot {p : Expr} {slot : Slot} (h : Slot.ofParameter t p = .ok slot)
    (hp : p.Bracketless) (ht : WellNested t) : slot.WellNested := by
  unfold Slot.ofParameter at h
  split at h
  · obtain rfl := Except.ok.inj h
    exact ht
  · obtain rfl := Except.ok.inj h
    exact ht
  · obtain rfl := Except.ok.inj h
    exact ht
  · obtain rfl := Except.ok.inj h
    exact ht
  · obtain rfl := Except.ok.inj h
    exact ⟨hp.word (List.mem_singleton_self _), nofun⟩
  · obtain rfl := Except.ok.inj h
    refine ⟨hp.word (List.mem_singleton_self _), fun u hu => ?_⟩
    obtain rfl := Option.some.inj hu
    exact hp.spelling (List.mem_singleton_self _)
  · obtain rfl := Except.ok.inj h
    exact ⟨(hp.word (List.mem_singleton_self _)).property.wellNested, ht, nofun⟩
  · simp only [Result.bind_eq_ok, Result.pure_eq_ok] at h
    obtain ⟨u, hu, rfl⟩ := h
    refine ⟨(hp.word (List.mem_singleton_self _)).property.wellNested, ht, fun v hv => ?_⟩
    obtain rfl := Option.some.inj hv
    exact wellNested_typeName (hp.spelling (List.mem_singleton_self _)) hu
  · cases h

section Signature

variable {slots : List Slot} (hslots : ∀ slot ∈ slots, slot.WellNested)

include hslots

theorem wellNested_option {o : OptionSlot} (ho : o ∈ (Signature.ofSlots slots).options) :
    (Slot.option o).WellNested := by
  rw [Signature.ofSlots_eq] at ho
  obtain ⟨slot, hslot, hoption⟩ := List.mem_filterMap.1 ho
  cases slot with
  | option o' =>
    obtain rfl := Option.some.inj hoption
    exact hslots _ hslot
  | _ => cases hoption

theorem wellNested_keywords {name : String} {type : Option String}
    (h : (Signature.ofSlots slots).keywords = some (name, type)) :
    (Slot.keywords name type).WellNested := by
  rw [Signature.ofSlots_eq] at h
  obtain ⟨slot, hslot, hkeywords⟩ := List.mem_filterMap.1 (List.mem_of_getLast? h)
  cases slot with
  | keywords name' type' =>
    obtain ⟨rfl, rfl⟩ := Prod.mk.inj (Option.some.inj hkeywords)
    exact hslots _ hslot
  | _ => cases hkeywords

/-- The pattern opens and closes its brace. -/
theorem wellNested_pattern {aliasName : Option String}
    (hname : ∀ n ∈ aliasName, Text.Bracketless n) :
    WellNested ((Signature.ofSlots slots).pattern aliasName) := by
  have hcolon : WellNested ": " := rfl
  have hdots : WellNested "..." := rfl
  -- whatever stands behind the options
  have hentries : ∀ rest : List String, (∀ t ∈ rest, WellNested t) → WellNested ("\x7b "
      ++ ", ".intercalate ((Signature.ofSlots slots).options.map OptionSlot.entry ++ rest)
      ++ " \x7d") := by
    intro rest hrest
    refine (wellNested_commas fun entry hentry => ?_).between (b := ['\x7d']) (fun _ => rfl)
      fun _ => rfl
    rcases List.mem_append.1 hentry with hentry | hentry
    · obtain ⟨o, ho, rfl⟩ := List.mem_map.1 hentry
      obtain ⟨hkey, htext, -⟩ := wellNested_option hslots ho
      unfold OptionSlot.entry
      split
      · exact htext
      · exact (hkey.append hcolon).append htext
    · exact hrest entry hentry
  refine ((hentries _ fun t ht => ?_).append ?_).append rfl
  · split at ht
    · rename_i name type hkeywords
      rw [List.mem_singleton.1 ht]
      exact hdots.append (wellNested_keywords hslots hkeywords).1.camel.wellNested
    · cases ht
  · cases aliasName with
    | none => rfl
    | some name => exact hcolon.append (hname name rfl).wellNested

theorem wellNested_indexMember {members : List String}
    (h : (Signature.ofSlots slots).indexMember = .ok members) :
    ∀ m ∈ members, WellNested m := by
  unfold Signature.indexMember at h
  split at h
  · obtain rfl := Except.ok.inj h
    nofun
  · obtain rfl := Except.ok.inj h
    intro m hm
    rw [List.mem_singleton.1 hm]
    rfl
  · rename_i name type hkeywords
    simp only [Result.bind_eq_ok, Result.pure_eq_ok] at h
    obtain ⟨u, hu, rfl⟩ := h
    intro m hm
    rw [List.mem_singleton.1 hm]
    have hkey : WellNested "[key: string]: " := rfl
    exact hkey.append (wellNested_typeName ((wellNested_keywords hslots hkeywords).2 _ rfl) hu)

theorem wellNested_aliasText {aliasName definition : Option String}
    (hname : ∀ n ∈ aliasName, Text.Bracketless n)
    (h : (Signature.ofSlots slots).aliasText aliasName = .ok definition) :
    ∀ d ∈ definition, WellNested d := by
  unfold Signature.aliasText at h
  split at h
  · obtain rfl := Except.ok.inj h
    nofun
  · rename_i name
    simp only [Result.bind_eq_ok, Result.pure_eq_ok] at h
    obtain ⟨index, hindex, rfl⟩ := h
    intro d hd
    obtain rfl := Option.some.inj hd
    -- one member for each option, and one for all other names
    have hmembers : ∀ m ∈ (Signature.ofSlots slots).options.map OptionSlot.member ++ index,
        WellNested m := by
      intro m hm
      rcases List.mem_append.1 hm with hm | hm
      · obtain ⟨o, ho, rfl⟩ := List.mem_map.1 hm
        obtain ⟨hkey, -, htype⟩ := wellNested_option hslots ho
        have hcolon : WellNested "?: " := rfl
        refine (hkey.append hcolon).append ?_
        cases htypes : o.type with
        | none => rfl
        | some u => exact htype u htypes
      · exact wellNested_indexMember hslots hindex m hm
    have htype : WellNested "type " := rfl
    have hopen : Turns [] " = \x7b " ['\x7d'] := fun _ => rfl
    exact (wellNested_commas hmembers).between
      ((htype.append (hname name rfl).wellNested).opens hopen) fun _ => rfl

/-- **Parameters are well nested**, and so is the options alias. -/
theorem wellNested_parameters {name definition : Option String} {texts : List String}
    (hname : ∀ n ∈ name, Text.Bracketless n)
    (h : (Signature.ofSlots slots).parameters name = .ok (texts, definition)) :
    (∀ t ∈ texts, WellNested t) ∧ ∀ d ∈ definition, WellNested d := by
  simp only [Signature.parameters, Result.bind_eq_ok, Result.pure_eq_ok, Prod.mk.injEq] at h
  obtain ⟨definition', hdefinition, rfl, rfl⟩ := h
  -- the pattern names the type only if the signature is typed
  have halias : ∀ n ∈ (Signature.ofSlots slots).aliasName? name, Text.Bracketless n := by
    intro n hn
    unfold Signature.aliasName? at hn
    split at hn
    · exact hname n hn
    · cases hn
  refine ⟨fun t ht => ?_, wellNested_aliasText hslots halias hdefinition⟩
  rcases List.mem_append.1 ht with ht | ht
  · rcases List.mem_append.1 ht with ht | ht
    · rw [Signature.ofSlots_eq] at ht
      obtain ⟨slot, hslot, htext⟩ := List.mem_filterMap.1 ht
      cases slot with
      | positional u =>
        obtain rfl := Option.some.inj htext
        exact hslots _ hslot
      | _ => cases htext
    · split at ht
      · rw [List.mem_singleton.1 ht]
        exact wellNested_pattern hslots halias
      · cases ht
  · rw [Signature.ofSlots_eq] at ht
    obtain ⟨slot, hslot, htext⟩ := List.mem_filterMap.1 ht
    cases slot with
    | rest u =>
      obtain rfl := Option.some.inj htext
      exact hslots _ hslot
    | _ => cases htext

end Signature

/-! ## Expressions -/

/-- An operation is written between its operands, or as a call around them. -/
theorem wellNested_binaryText (op : BinaryOp) {l r : String} (hl : WellNested l)
    (hr : WellNested r) : WellNested (binaryText op l r) := by
  unfold binaryText
  split
  · have hopen : Turns [] "Math.floor(" [')'] := fun _ => rfl
    have hslash : WellNested " / " := rfl
    exact hr.between ((hopen.append (hl.turns _)).append (hslash.turns _)) fun _ => rfl
  · have hspelling : WellNested op.spelling := by cases op <;> rfl
    have hblank : WellNested " " := rfl
    exact (((hl.append hblank).append hspelling).append hblank).append hr

theorem wellNested_lambdaText {ps : List String} {b : String} (hps : ∀ p ∈ ps, WellNested p)
    (hb : WellNested b) : WellNested (lambdaText ps b) := by
  have hbody : WellNested (if b.toList.head? = some '\x7b' then "(" ++ b ++ ")" else b) := by
    split
    · exact hb.between (b := [')']) (fun _ => rfl) fun _ => rfl
    · exact hb
  exact ((wellNested_commas hps).between (b := [')']) (o := "(") (k := ") => ") (fun _ => rfl)
    fun _ => rfl).append hbody

theorem wellNested_dictionaryText {es : List String} (h : ∀ e ∈ es, WellNested e) :
    WellNested (dictionaryText es) := by
  have hcomma : WellNested "," := rfl
  unfold dictionaryText
  split
  · rfl
  · refine wellNested_braced (fun _ => rfl) (.of_lines fun l hl => ?_)
    obtain ⟨e, he, rfl⟩ := List.mem_map.1 hl
    exact (h e he).append hcomma

/-- A name, a colon or an equals sign, and what follows. -/
theorem wellNested_labelled {name label text : String} (hname : Text.Bracketless name)
    (hlabel : Text.Bracketless label) (htext : WellNested text) :
    WellNested (name ++ label ++ text) :=
  (hname.append hlabel).wellNested.append htext

/-- Whatever the expression is written as is well nested. -/
def Expr.WritesNested (e : Expr) : Prop :=
  ∀ (s : Scope) (t : String), e.emit s = .ok t → WellNested t

section Forms

variable {name type : String} {loc : Option Location}

theorem writesNested_reference {splat : Option Splat} (hname : Text.Bracketless name) :
    (Expr.reference name splat loc).WritesNested := by
  intro s t h
  cases splat with
  | none =>
    obtain rfl := Except.ok.inj h
    split
    · rfl
    · exact hname.camel.wellNested
  | some splat =>
    have hdots : WellNested "..." := rfl
    obtain rfl := Except.ok.inj h
    exact hdots.append hname.camel.wellNested

/-- A type stands behind a colon, or between the angle brackets of an
array. -/
theorem writesNested_typedParameter {splat : Option Splat} (hname : Text.Bracketless name)
    (htype : TypeName.Spelling type.toList) :
    (Expr.typedParameter name type splat loc).WritesNested := by
  intro s t h
  rcases splat with _ | _ | _
  · simp only [Expr.emit, Result.bind_eq_ok, Result.pure_eq_ok] at h
    obtain ⟨u, hu, rfl⟩ := h
    exact wellNested_labelled hname.camel (by decide) (wellNested_typeName htype hu)
  · simp only [Expr.emit, Result.bind_eq_ok, Result.pure_eq_ok] at h
    obtain ⟨u, hu, rfl⟩ := h
    have hdots : Text.Bracketless "..." := by decide
    have hclose : WellNested ">" := rfl
    exact (wellNested_labelled (hdots.append hname.camel) (by decide)
      (wellNested_typeName htype hu)).append hclose
  · have hdots : WellNested "..." := rfl
    obtain rfl := Except.ok.inj h
    exact hdots.append hname.camel.wellNested

/-- The arguments stand in brackets behind the callee. -/
theorem writesNested_call {callee : Expr} {arguments : List Expr} (hcallee : callee.WritesNested)
    (harguments : ∀ a ∈ arguments, a.WritesNested) :
    (Expr.call callee arguments loc).WritesNested := by
  intro s t h
  obtain ⟨c, texts, hc, htexts, rfl⟩ := emit_call h
  have hcalled : WellNested c := by
    split at hc
    · obtain rfl := Except.ok.inj hc
      rfl
    · exact hcallee _ c hc
  have hpassed : ∀ a ∈ arguments.zip texts, WellNested a.2 := by
    rintro ⟨a, u⟩ ha
    obtain ⟨b, hb, hbu⟩ := exists_of_mem_emitAll htexts (List.of_mem_zip ha).2
    exact harguments b hb _ u hbu
  have hopen : Turns [] "(" [')'] := fun _ => rfl
  exact (wellNested_commas (wellNested_argumentList hpassed)).between (hcalled.opens hopen)
    fun _ => rfl

/-- A property is written as its name and not as a reference. -/
theorem writesNested_member {object property : Expr} (hobject : object.WritesNested)
    (hproperty : property.WritesNested) (hwords : ∀ w ∈ property.words, Text.Bracketless w) :
    (Expr.member object property loc).WritesNested := by
  intro s t h
  obtain ⟨o, p, ho, hp, rfl⟩ := emit_member h
  have howner : WellNested o := by
    split at ho
    · obtain rfl := Except.ok.inj ho
      rfl
    · exact hobject _ o ho
  have hname : WellNested p := by
    rcases hp with ⟨name, splat, loc', rfl, rfl⟩ | hp
    · exact (hwords name (List.mem_singleton_self _)).property.wellNested
    · exact hproperty _ p hp
  have hdot : WellNested "." := rfl
  exact (howner.append hdot).append hname

/-- The bounds of a slice are written behind the value, and not the slice
itself. -/
theorem writesNested_subscript {value index : Expr} (hvalue : value.WritesNested)
    (hindex : index.WritesNested) (hbounds : ∀ c ∈ index.children, c.WritesNested) :
    (Expr.subscript value index loc).WritesNested := by
  intro s t h
  obtain ⟨v, hv, ⟨start, stop, step, loc', a, b, rfl, -, ha, hb, rfl⟩ | ⟨i, hi, rfl⟩⟩ :=
    emit_subscript h
  · have hbound : ∀ {o : Option Expr} {r : Option String},
        (∀ x ∈ o, x ∈ (Expr.slice start stop step loc').children) →
        Expr.emitOption s.reading o = .ok r → ∀ u ∈ r, WellNested u := by
      intro o r ho hr u hu
      obtain ⟨x, hx, hxu⟩ := exists_of_mem_emitOption hr hu
      exact hbounds x (ho x hx) _ u hxu
    have hopen : Turns [] ".slice(" [')'] := fun _ => rfl
    refine (wellNested_commas fun u hu => ?_).between ((hvalue _ v hv).opens hopen) fun _ => rfl
    rcases mem_sliceBounds hu with rfl | hu | hu
    · rfl
    · exact hbound (fun x hx => by simp_all [Expr.children]) ha u hu
    · exact hbound (fun x hx => by simp_all [Expr.children]) hb u hu
  · have hopen : Turns [] "[" [']'] := fun _ => rfl
    exact (hindex _ i hi).between ((hvalue _ v hv).opens hopen) fun _ => rfl

theorem writesNested_conditional {test consequence alternative : Expr} (htest : test.WritesNested)
    (hconsequence : consequence.WritesNested) (halternative : alternative.WritesNested) :
    (Expr.conditional test consequence alternative loc).WritesNested := by
  intro s t h
  have hquestion : WellNested " ? " := rfl
  have hcolon : WellNested " : " := rfl
  simp only [Expr.emit, Result.bind_eq_ok, Result.pure_eq_ok] at h
  obtain ⟨u, hu, v, hv, w, hw, rfl⟩ := h
  exact ((((htest _ u hu).append hquestion).append (hconsequence _ v hv)).append hcolon).append
    (halternative _ w hw)

/-- The parameters of a function without a name are those of any function. -/
theorem writesNested_lambda {parameters : List Expr} {body : Expr}
    (hparameters : ∀ p ∈ parameters, p.Bracketless ∧ p.WritesNested) (hbody : body.WritesNested) :
    (Expr.lambda parameters body loc).WritesNested := by
  intro s t h
  simp only [Expr.emit, Result.bind_eq_ok, Result.pure_eq_ok] at h
  obtain ⟨slots, hslots, ⟨texts, definition⟩, hparams, b, hb, rfl⟩ := h
  have hspelled : ∀ slot ∈ slots, slot.WellNested := by
    intro slot hslot
    obtain ⟨p, hp, u, hu, hof⟩ := exists_of_mem_slots hslots hslot
    exact wellNested_slot hof (hparameters p hp).1 ((hparameters p hp).2 _ u hu)
  have hunnamed : ∀ n ∈ (none : Option String), Text.Bracketless n := by rintro n ⟨⟩
  exact wellNested_lambdaText (wellNested_parameters hspelled hunnamed hparams).1 (hbody _ b hb)

/-- Items that are missing are written as nothing. -/
theorem writesNested_sequence {kind : SequenceKind} {items : List (Option Expr)}
    (hitems : ∀ x, some x ∈ items → x.WritesNested) :
    (Expr.sequence kind items loc).WritesNested := by
  intro s t h
  simp only [Expr.emit, Result.bind_eq_ok, Result.pure_eq_ok] at h
  obtain ⟨us, hus, rfl⟩ := h
  refine (wellNested_commas fun u hu => ?_).between (b := [']']) (fun _ => rfl) fun _ => rfl
  rcases exists_of_mem_emitItems hus hu with rfl | ⟨item, hitem, hemit⟩
  · rfl
  · exact hitems item hitem _ u hemit

theorem writesNested_dictionary {entries : List Expr} (h : ∀ e ∈ entries, e.WritesNested) :
    (Expr.dictionary entries loc).WritesNested := by
  intro s t ht
  simp only [Expr.emit, Result.bind_eq_ok, Result.pure_eq_ok] at ht
  obtain ⟨us, hus, rfl⟩ := ht
  refine wellNested_dictionaryText fun u hu => ?_
  obtain ⟨entry, hentry, hemit⟩ := exists_of_mem_emitAll hus hu
  exact h entry hentry _ u hemit

/-- A key that is no plain text stands in square brackets. -/
theorem writesNested_pair {key value : Expr} (hkey : key.WritesNested)
    (hvalue : value.WritesNested) : (Expr.pair key value loc).WritesNested := by
  intro s t h
  simp only [Expr.emit, Result.bind_eq_ok, Result.pure_eq_ok] at h
  obtain ⟨k, hk, v, hv, rfl⟩ := h
  have hcolon : WellNested ": " := rfl
  have hlabel : WellNested (if key.isPlainKey then k else "[" ++ k ++ "]") := by
    split
    · exact hkey _ k hk
    · exact (hkey _ k hk).between (b := [']']) (fun _ => rfl) fun _ => rfl
  exact (hlabel.append hcolon).append (hvalue _ v hv)

end Forms

/-- An expression is well nested if everything inside its parts is. -/
theorem writesNested_step (he : e.Bracketless)
    (hinside : ∀ c ∈ e.children, ∀ x, Expr.Inside x c → x.WritesNested) : e.WritesNested := by
  have ih : ∀ c ∈ e.children, c.WritesNested := fun c hc => hinside c hc c .refl
  have hequals : Text.Bracketless " = " := by decide
  cases e with
  | reference name splat loc => exact writesNested_reference (he.word (List.mem_singleton_self _))
  | typedParameter name type splat loc =>
    exact writesNested_typedParameter (he.word (List.mem_singleton_self _))
      (he.spelling (List.mem_singleton_self _))
  | call callee arguments loc =>
    exact writesNested_call (ih callee (List.mem_cons_self ..))
      fun a ha => ih a (List.mem_cons_of_mem _ ha)
  | member object property loc =>
    have hchild : property ∈ (Expr.member object property loc).children :=
      List.mem_cons_of_mem _ (List.mem_singleton_self _)
    exact writesNested_member (ih object (List.mem_cons_self ..)) (ih property hchild)
      fun w hw => (he.child hchild).word hw
  | subscript value index loc =>
    have hchild : index ∈ (Expr.subscript value index loc).children :=
      List.mem_cons_of_mem _ (List.mem_singleton_self _)
    -- a slice has no written form, so its bounds are asked for in its place
    exact writesNested_subscript (ih value (List.mem_cons_self ..)) (ih index hchild)
      fun c hc => hinside index hchild c (.child hc .refl)
  | conditional test consequence alternative loc =>
    exact writesNested_conditional (ih test (by simp [Expr.children]))
      (ih consequence (by simp [Expr.children])) (ih alternative (by simp [Expr.children]))
  | lambda parameters body loc =>
    have hparameter : ∀ p ∈ parameters, p ∈ (Expr.lambda parameters body loc).children :=
      fun p hp => List.mem_append_left _ hp
    exact writesNested_lambda
      (fun p hp => ⟨he.child (hparameter p hp), ih p (hparameter p hp)⟩)
      (ih body (List.mem_append_right _ (List.mem_singleton_self _)))
  | sequence kind items loc =>
    exact writesNested_sequence fun x hx => ih x (List.mem_filterMap.2 ⟨_, hx, rfl⟩)
  | dictionary entries loc => exact writesNested_dictionary ih
  | pair key value loc =>
    exact writesNested_pair (ih key (List.mem_cons_self ..))
      (ih value (List.mem_cons_of_mem _ (List.mem_singleton_self _)))
  -- a parameter with a default and a named argument are a name, a sign and a value
  | defaultParameter name value loc =>
    intro s t h
    simp only [Expr.emit, Result.bind_eq_ok, Result.pure_eq_ok] at h
    obtain ⟨v, hv, rfl⟩ := h
    exact wellNested_labelled (he.word (List.mem_singleton_self _)).camel hequals
      (ih value (List.mem_singleton_self _) _ v hv)
  | typedDefaultParameter name type value loc =>
    intro s t h
    simp only [Expr.emit, Result.bind_eq_ok, Result.pure_eq_ok] at h
    obtain ⟨v, hv, rfl⟩ := h
    exact wellNested_labelled (he.word (List.mem_singleton_self _)).camel hequals
      (ih value (List.mem_singleton_self _) _ v hv)
  | keywordArgument name value loc =>
    intro s t h
    simp only [Expr.emit, Result.bind_eq_ok, Result.pure_eq_ok] at h
    obtain ⟨v, hv, rfl⟩ := h
    exact wellNested_labelled (he.word (List.mem_singleton_self _)).property (by decide)
      (ih value (List.mem_singleton_self _) _ v hv)
  | slice start stop step loc =>
    intro s t h
    simp only [Expr.emit, reduceCtorEq] at h
  | binary left op right loc =>
    intro s t h
    simp only [Expr.emit, Result.bind_eq_ok, Result.pure_eq_ok] at h
    obtain ⟨l, hl, r, hr, rfl⟩ := h
    exact wellNested_binaryText op (ih left (List.mem_cons_self ..) _ l hl)
      (ih right (List.mem_cons_of_mem _ (List.mem_singleton_self _)) _ r hr)
  | not operand loc =>
    intro s t h
    have hmark : WellNested "!" := rfl
    simp only [Expr.emit, Result.bind_eq_ok, Result.pure_eq_ok] at h
    obtain ⟨u, hu, rfl⟩ := h
    exact hmark.append (ih operand (List.mem_singleton_self _) _ u hu)
  | unary op operand loc =>
    intro s t h
    have hspelling : WellNested op.spelling := by cases op <;> rfl
    simp only [Expr.emit, Result.bind_eq_ok, Result.pure_eq_ok] at h
    obtain ⟨u, hu, rfl⟩ := h
    exact hspelling.append (ih operand (List.mem_singleton_self _) _ u hu)
  | parenthesized inner loc =>
    intro s t h
    simp only [Expr.emit, Result.bind_eq_ok, Result.pure_eq_ok] at h
    obtain ⟨u, hu, rfl⟩ := h
    exact (ih inner (List.mem_singleton_self _) _ u hu).between (b := [')']) (fun _ => rfl)
      fun _ => rfl
  | string text loc =>
    intro s t h
    obtain rfl := Except.ok.inj h
    exact (bracketless_written (he.word (List.mem_singleton_self _))).wellNested
  | number kind text loc =>
    intro s t h
    obtain rfl := Except.ok.inj h
    exact (he.word (List.mem_singleton_self _)).wellNested
  | boolean value loc =>
    intro s t h
    obtain rfl := Except.ok.inj h
    cases value <;> rfl
  | null loc =>
    intro s t h
    obtain rfl := Except.ok.inj h
    rfl

/-- **Every expression is well nested.** -/
theorem wellNested_emit (h : e.emit s = .ok t) (he : e.Bracketless) : WellNested t := by
  have hall : ∀ x, Expr.Inside x e → x.WritesNested := by
    clear h
    induction e using Expr.induction_children with
    | step e ih =>
      have hchildren := fun c hc => ih c hc (he.child hc)
      exact forall_inside (writesNested_step he hchildren) hchildren
  exact hall e .refl s t h

end Scribe
