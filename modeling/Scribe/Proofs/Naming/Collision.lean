import Scribe.Proofs.Calling.Binding
import Scribe.Proofs.Emit.Declared
import Scribe.Proofs.Emit.Signature
import Scribe.Proofs.Naming.Words

/-!
# Names that become one

Camel case forgets how a name was spelled, so two names can be written
alike. `Merges` says which: they have the same underscores in front, one
outline, and the same underscores behind, where a reserved word counts
the one it gets. `camel_eq_iff` says that no other names are written
alike.

`BoundAs` relates the names that a scope binds to the identifiers that
stand for them in its text. `names_apart` puts the two together for every
module that was written: in each of its scopes, names that differ are
written differently unless they merge. In `collisionProgram` two
parameters do.
-/

namespace Scribe

open Identifier

/-! ## Which names are written alike -/

/-- **Two names merge**: both are rewritten, and what the output shows of
them is the same. -/
structure Merges (a b : String) : Prop where
  left : isRewritten a.toList = true
  right : isRewritten b.toList = true
  lead : (parts a.toList).lead = (parts b.toList).lead
  outline : outline a.toList = outline b.toList
  trail : writtenTrail a.toList = writtenTrail b.toList

theorem written_eq_iff {a b : List Char} :
    written a = written b ↔ (parts a).lead = (parts b).lead ∧ outline a = outline b ∧
      writtenTrail a = writtenTrail b := by
  rw [written, written, Parts.mk.injEq,
    joinCamel_eq_iff (fun _ => word_of_mem_words) (fun _ => word_of_mem_words)]
  rfl

/-- A name that stays is not written like one that is rewritten. -/
theorem camel_ne_camel {a b : String} (ha : isRewritten a.toList = false)
    (hb : isRewritten b.toList = true) : camel a ≠ camel b := by
  intro h
  rw [camel_of_not_isRewritten ha] at h
  rw [h, toList_camel hb, isRewritten_written hb] at ha
  cases ha

/-- **Different names are written alike exactly if they merge.** -/
theorem camel_eq_iff {a b : String} : camel a = camel b ↔ a = b ∨ Merges a b := by
  constructor
  · intro h
    cases ha : isRewritten a.toList with
    | false =>
      cases hb : isRewritten b.toList with
      | false =>
        rw [camel_of_not_isRewritten ha, camel_of_not_isRewritten hb] at h
        exact .inl h
      | true => exact absurd h (camel_ne_camel ha hb)
    | true =>
      cases hb : isRewritten b.toList with
      | false => exact absurd h.symm (camel_ne_camel hb ha)
      | true =>
        have hname := congrArg String.toList h
        rw [toList_camel ha, toList_camel hb] at hname
        have hparts := congrArg parts hname
        rw [parts_name_of_proper (proper_written ha), parts_name_of_proper (proper_written hb)]
          at hparts
        obtain ⟨hlead, houtline, htrail⟩ := written_eq_iff.1 hparts
        exact .inr ⟨ha, hb, hlead, houtline, htrail⟩
  · rintro (rfl | h)
    · rfl
    · refine String.toList_injective ?_
      rw [toList_camel h.left, toList_camel h.right,
        written_eq_iff.2 ⟨h.lead, h.outline, h.trail⟩]

/-! ## The names that a scope binds -/

/-- **The text of a binding has `w` for the bound name**: alone or behind
the dots of a star, and in front of the type or the default. -/
def Expr.Writes (s : Scope) (w text : String) : Expr → Prop
  | .reference _ none _ => text = w
  | .reference _ (some _) _ => text = "..." ++ w
  | .typedParameter _ type none _ => ∃ t, typeName type = .ok t ∧ text = w ++ ": " ++ t
  | .typedParameter _ type (some .list) _ =>
    ∃ t, typeName type = .ok t ∧ text = "..." ++ w ++ ": Array<" ++ t ++ ">"
  | .typedParameter _ _ (some .dictionary) _ => text = "..." ++ w
  | .defaultParameter _ value _ => ∃ v, value.emit s = .ok v ∧ text = w ++ " = " ++ v
  | .typedDefaultParameter _ _ value _ => ∃ v, value.emit s = .ok v ∧ text = w ++ " = " ++ v
  | _ => False

/-- **What a scope binds, and as what.** Parameters are written in the
scope around the function, `outer`, and everything else in the scope of
its body, `inner`. -/
inductive BoundAs (outer inner : Scope) (parameters : List Expr) (body : List Stmt) :
    String → String → Prop
  /-- The receiver is not passed and has a word of its own. -/
  | receiver {name : String} : inner.receiver = some name →
      BoundAs outer inner parameters body name "this"
  | parameter {e : Expr} {name w text : String} : e ∈ parameters → e.parameterName? = some name →
      e.emit outer.reading = .ok text → e.Writes outer.reading w text →
      BoundAs outer inner parameters body name w
  /-- A name that a statement in the scope gives a value to. -/
  | assigned {st : Stmt} {left e : Expr} {name w text : String} :
      st ∈ Stmt.bodyInScope body → left ∈ st.target? → e ∈ left.leaves →
      e.parameterName? = some name → e.emit inner.assigning = .ok text →
      e.Writes inner.assigning w text → BoundAs outer inner parameters body name w
  /-- A function that is defined in the scope. -/
  | function {name w : String} {ps : List Expr} {b : List Stmt} {returnType : Option String}
      {decorators : List String} {loc : Option Location} :
      .function name ps b returnType decorators loc ∈ Stmt.bodyInScope body →
      (∀ texts returns, inner.functionHeader name decorators texts returns =
        "function " ++ w ++ "(" ++ ", ".intercalate texts ++ ")" ++ returns ++ " \x7b") →
      BoundAs outer inner parameters body name w

/-- A name without a star, a type and a default. -/
def Expr.isBareName : Expr → Bool
  | .reference _ none _ => true
  | _ => false

/-- What stands for a name where the expression binds it. -/
def Expr.identifierFor (receiver : Option String) (name : String) (e : Expr) : String :=
  if e.isBareName = true ∧ receiver = some name then "this" else camel name

/-- **The text of a binding shows the name once**, as `Expr.identifierFor`
says. -/
theorem writes_iff {e : Expr} {s : Scope} {name w text : String}
    (hname : e.parameterName? = some name) (htext : e.emit s = .ok text) :
    e.Writes s w text ↔ w = e.identifierFor s.receiver name := by
  cases e with
  | reference n splat loc =>
    obtain rfl := Option.some.inj hname
    cases splat with
    | none =>
      simp only [Expr.emit, Except.ok.injEq] at htext
      simp only [Expr.Writes, Expr.identifierFor, Expr.isBareName, true_and, htext]
      exact eq_comm
    | some _ =>
      simp only [Expr.emit, Except.ok.injEq] at htext
      simp [Expr.Writes, Expr.identifierFor, Expr.isBareName, ← htext, eq_comm]
  | typedParameter n type splat loc =>
    obtain rfl := Option.some.inj hname
    rcases splat with _ | _ | _
    · simp only [Expr.emit, Result.bind_eq_ok, Result.pure_eq_ok] at htext
      obtain ⟨t, ht, rfl⟩ := htext
      simp [Expr.Writes, Expr.identifierFor, Expr.isBareName, ht, eq_comm]
    · simp only [Expr.emit, Result.bind_eq_ok, Result.pure_eq_ok] at htext
      obtain ⟨t, ht, rfl⟩ := htext
      simp [Expr.Writes, Expr.identifierFor, Expr.isBareName, ht, eq_comm]
    · simp only [Expr.emit, Except.ok.injEq] at htext
      simp [Expr.Writes, Expr.identifierFor, Expr.isBareName, ← htext, eq_comm]
  | defaultParameter n value loc =>
    obtain rfl := Option.some.inj hname
    simp only [Expr.emit, Result.bind_eq_ok, Result.pure_eq_ok] at htext
    obtain ⟨v, hv, rfl⟩ := htext
    simp [Expr.Writes, Expr.identifierFor, Expr.isBareName, hv, eq_comm]
  | typedDefaultParameter n type value loc =>
    obtain rfl := Option.some.inj hname
    simp only [Expr.emit, Result.bind_eq_ok, Result.pure_eq_ok] at htext
    obtain ⟨v, hv, rfl⟩ := htext
    simp [Expr.Writes, Expr.identifierFor, Expr.isBareName, hv, eq_comm]
  | _ => cases hname

theorem identifierFor_cases (receiver : Option String) (name : String) (e : Expr) :
    e.identifierFor receiver name = "this" ∧ receiver = some name ∨
      e.identifierFor receiver name = camel name := by
  unfold Expr.identifierFor
  split
  · rename_i h
    exact .inl ⟨rfl, h.2⟩
  · exact .inr rfl

theorem parameterName_of_slot {text : String} {e : Expr} {slot : Slot}
    (h : Slot.ofParameter text e = .ok slot) : ∃ name, e.parameterName? = some name := by
  cases e with
  | reference name splat loc => exact ⟨name, rfl⟩
  | defaultParameter name value loc => exact ⟨name, rfl⟩
  | typedParameter name type splat loc => exact ⟨name, rfl⟩
  | typedDefaultParameter name type value loc => exact ⟨name, rfl⟩
  | _ => cases h

/-! ## Names in a scope -/

/-- A name of ASCII letters, digits and underscores. -/
def IsAsciiName (name : String) : Prop :=
  name.toList.all (fun c => isWordChar c || c == '_') = true

/-- **A scope keeps its names apart.** -/
structure KeepsApart (outer inner : Scope) (parameters : List Expr) (body : List Stmt) :
    Prop where
  /-- Every parameter is written. -/
  parameter : ∀ e ∈ parameters, ∃ name w, e.parameterName? = some name ∧
    BoundAs outer inner parameters body name w
  /-- So is every name that is given a value. -/
  assigned : ∀ splat name, Binds body splat name →
    ∃ w, BoundAs outer inner parameters body name w
  /-- And every function. -/
  function : ∀ name ps b returnType decorators loc,
    .function name ps b returnType decorators loc ∈ Stmt.bodyInScope body →
    ∃ w, BoundAs outer inner parameters body name w
  /-- Different names are written differently, unless they merge. -/
  apart : ∀ a b w, BoundAs outer inner parameters body a w →
    BoundAs outer inner parameters body b w → a ≠ b → Merges a b
  /-- Names that merge are written alike, if they are ASCII; the receiver
  is not written by name. -/
  merged : ∀ a b v w, BoundAs outer inner parameters body a v →
    BoundAs outer inner parameters body b w → v ≠ "this" → w ≠ "this" →
    IsAsciiName a → IsAsciiName b → Merges a b → v = w

section Bound

variable {outer inner : Scope} {parameters : List Expr} {body : List Stmt}

/-- **Two ways to write a bound name.** -/
theorem BoundAs.cases_written (hinner : inner.kind = .classBody → body = [])
    (houter : ∀ name, outer.receiver = some name → inner.receiver = some name)
    {name w : String} (h : BoundAs outer inner parameters body name w) :
    w = "this" ∧ inner.receiver = some name ∨ w = camel name := by
  cases h with
  | receiver hr => exact .inl ⟨rfl, hr⟩
  | @parameter e _ _ text _ hname htext hw =>
    rw [(writes_iff hname htext).1 hw]
    exact (identifierFor_cases _ name e).imp (fun h => ⟨h.1, houter name h.2⟩) id
  | @assigned _ _ e _ _ text _ _ _ hname htext hw =>
    rw [(writes_iff hname htext).1 hw]
    exact identifierFor_cases _ name e
  | function hmem hheader =>
    have hkind : inner.kind ≠ .classBody := by
      intro hclass
      rw [hinner hclass] at hmem
      cases hmem
    have hline := hheader [] ""
    rw [functionHeader_eq hkind] at hline
    exact .inr (by simpa using hline.symm)

/-- **A scope whose parameters were written keeps its names apart.** -/
theorem keepsApart_of_slots {slots : List Slot} (hinner : inner.kind = .classBody → body = [])
    (houter : ∀ name, outer.receiver = some name → inner.receiver = some name)
    (hslots : Expr.emitSlots outer.reading parameters = .ok slots) :
    KeepsApart outer inner parameters body := by
  refine ⟨?_, ?_, ?_, ?_, ?_⟩
  -- a parameter has a slot, and with it a written name
  · intro e he
    obtain ⟨text, htext, slot, -, hslot⟩ := exists_slot hslots he
    obtain ⟨name, hname⟩ := parameterName_of_slot hslot
    exact ⟨name, _, hname, .parameter he hname htext ((writes_iff hname htext).2 rfl)⟩
  -- so has everything that is assigned to
  · rintro splat name ⟨st, hst, left, hleft, loc, hleaf⟩
    obtain ⟨text, htext⟩ :
        ∃ text, (Expr.reference name splat loc).emit inner.assigning = .ok text := by
      cases splat with
      | none => exact ⟨_, rfl⟩
      | some _ => exact ⟨_, rfl⟩
    exact ⟨_, .assigned hst hleft hleaf rfl htext ((writes_iff rfl htext).2 rfl)⟩
  -- a function of the body is written with its name in front
  · intro name ps b returnType decorators loc hmem
    have hkind : inner.kind ≠ .classBody := by
      intro hclass
      rw [hinner hclass] at hmem
      cases hmem
    exact ⟨camel name, .function hmem fun texts returns => functionHeader_eq hkind ..⟩
  -- two names are written alike
  · intro a b w ha hb hne
    rcases ha.cases_written hinner houter with ⟨rfl, ha'⟩ | rfl
    · rcases hb.cases_written hinner houter with ⟨-, hb'⟩ | hthis
      · exact absurd (Option.some.inj (ha'.symm.trans hb')) hne
      · exact absurd hthis.symm (camel_ne_this b)
    · rcases hb.cases_written hinner houter with ⟨hthis, -⟩ | heq
      · exact absurd hthis (camel_ne_this a)
      · exact (camel_eq_iff.1 heq).resolve_left hne
  -- two names merge
  · intro a b v w ha hb hv hw _ _ hmerges
    have hva := (ha.cases_written hinner houter).resolve_left fun h => hv h.1
    have hwb := (hb.cases_written hinner houter).resolve_left fun h => hw h.1
    rw [hva, hwb]
    exact camel_eq_iff.2 (.inr hmerges)

end Bound

/-! ## Names in a module -/

/-- A class body has no receiver of its own. -/
theorem Stmt.Holds.receiver_eq_none {s s' : Scope} {st inner : Stmt} {d : Nat}
    (h : st.Holds s d s' inner) (hs : s.kind = .classBody → s.receiver = none) :
    s'.kind = .classBody → s'.receiver = none := by
  induction h with
  | self => exact hs
  | function _ _ ih => exact ih nofun
  | classDefinition _ _ ih => exact ih fun _ => rfl
  | conditional _ _ _ ih => exact ih hs
  | forLoop _ _ ih => exact ih hs
  | whileLoop _ _ ih => exact ih hs

/-- **The scopes of a module keep their names apart.** -/
structure Program.KeepsApart (p : Program) : Prop where
  top : Scribe.KeepsApart .top .top [] p.body
  /-- A function at any depth. -/
  function : ∀ st ∈ p.body, ∀ (d : Nat) (s : Scope) (name : String) (parameters : List Expr)
    (body : List Stmt) (returnType : Option String) (decorators : List String)
    (loc : Option Location),
    st.Holds .top d s (.function name parameters body returnType decorators loc) →
    Scribe.KeepsApart s (s.enterFunction (s.receiverInside decorators parameters))
      (s.passed decorators parameters) body
  /-- A function without a name binds its parameters only. -/
  lambda : ∀ (s : Scope) (parameters : List Expr) (body : Expr) (loc : Option Location)
    (text : String), (Expr.lambda parameters body loc).emit s = .ok text →
    Scribe.KeepsApart s s parameters []

/-- **Renaming captures no name that does not merge.** -/
theorem names_apart {p : Program} {blocks : List String} (hblocks : p.blocks = .ok blocks) :
    p.KeepsApart := by
  obtain ⟨rest, hrest, rfl⟩ := blocks_eq_ok.1 hblocks
  refine ⟨?_, ?_, ?_⟩
  · exact @keepsApart_of_slots .top .top [] p.body [] nofun (fun _ => id) rfl
  · intro st hst d s name parameters body returnType decorators loc hholds
    obtain ⟨f, hf, -⟩ := statementBlocks_mem hrest hst
    obtain ⟨g, hg, -⟩ := hholds.infix_lines hf
    obtain ⟨slots, _, _, _, _, hslots, -⟩ := emit_function hg
    refine keepsApart_of_slots nofun ?_ hslots
    -- a method has a receiver of its own, any other function that of the scope around it
    intro n hn
    by_cases hclass : s.kind = .classBody
    · rw [hholds.receiver_eq_none nofun hclass] at hn
      cases hn
    · simpa [Scope.receiverInside, hclass, Scope.enterFunction] using hn
  · intro s parameters body loc text htext
    simp only [Expr.emit, Result.bind_eq_ok] at htext
    obtain ⟨slots, hslots, -⟩ := htext
    exact keepsApart_of_slots (fun _ => rfl) (fun _ => id) hslots

/-- A function whose parameters differ in their spelling only. -/
def collisionProgram : Program :=
  let name (n : String) : Expr := .reference n none none
  ⟨[.function "f" [name "my_value", name "myValue"]
    [.returning (some (.binary (name "my_value") .sub (name "myValue") none)) none]
    none [] none], none⟩

/-- The blocks of the program. -/
def collisionBlocks : List String :=
  ["function f(myValue, myValue) \x7b\n  return myValue - myValue\n\x7d"]

theorem blocks_collisionProgram : collisionProgram.blocks = .ok collisionBlocks :=
  Result.eq_ok_of_toOption (by decide +kernel)

/-- The scopes of the program above keep apart what does not merge. -/
theorem names_apart_collision :
    collisionProgram.blocks = .ok collisionBlocks ∧ collisionProgram.KeepsApart :=
  ⟨blocks_collisionProgram, names_apart blocks_collisionProgram⟩

/-- **Two parameters become one.** The function above has two different
parameters in the source, and both are written `myValue`. -/
theorem parameters_collide : collisionProgram.blocks = .ok collisionBlocks ∧
    ∃ st ∈ collisionProgram.body, ∃ name parameters body returnType decorators loc,
      st.Holds .top 0 .top (.function name parameters body returnType decorators loc) ∧
      ∃ a b w, a ≠ b ∧
        BoundAs .top (Scope.top.enterFunction none) parameters body a w ∧
        BoundAs .top (Scope.top.enterFunction none) parameters body b w := by
  refine ⟨blocks_collisionProgram, _, List.mem_cons_self .., _, _, _, _, _, _, .self,
    "my_value", "myValue", "myValue", by decide, ?_, ?_⟩
  · exact .parameter (List.mem_cons_self ..) rfl
      (Result.eq_ok_of_toOption (by decide +kernel)) (rfl : "myValue" = "myValue")
  · exact .parameter (List.mem_cons_of_mem _ (List.mem_cons_self ..)) rfl
      (Result.eq_ok_of_toOption (by decide +kernel)) (rfl : "myValue" = "myValue")

end Scribe
