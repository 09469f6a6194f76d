import Scribe.Proofs.Calling.Binding
import Scribe.Proofs.Syntax.Scoping

/-!
# What `this` stands for

The receiver of a method is written `this`, wherever its name is used.
The emitter carries the name along and compares spellings. `this_written`
says what comes of it, place by place: a name is written `this` exactly
if the nearest method has a receiver of that name, whatever stands in
between. So `this` is the receiver unless a function in between binds the
name again; then that function's own variable is written `this` too, and
so is the parameter that binds it (`shadowing_this`).
-/

namespace Scribe

open Text

variable {s : Scope} {layers layers' : List Layer}

/-! ## Scopes and layers -/

/-- **The scope agrees with the layers**: it has the receiver in force
there. -/
structure Scope.Agrees (s : Scope) (layers : List Layer) : Prop where
  receiver : s.receiver = inForce layers
  kind : s.kind = .classBody ↔ inClassBody layers = true
  bound : ReceiversBound layers

theorem mem_of_methodReceiver {decorators : List String} {parameters : List Expr} {name : String}
    (h : methodReceiver decorators parameters = some name) :
    name ∈ parameterNames parameters := by
  obtain ⟨receiver, rest, rfl, hname⟩ := exists_of_methodReceiver h
  refine List.mem_filterMap.2 ⟨receiver, List.mem_cons_self .., ?_⟩
  unfold Expr.singleName? at hname
  split at hname
  · exact hname
  · exact hname
  · cases hname

theorem ReceiversBound.cons {layer : Layer} (h : ReceiversBound layers)
    (hlayer : ∀ name bound, layer = .method (some name) bound → name ∈ bound) :
    ReceiversBound (layer :: layers) := by
  intro name bound hmem
  rcases List.mem_cons.1 hmem with heq | hmem
  · exact hlayer name bound heq.symm
  · exact h name bound hmem

/-- A function keeps scope and layers in agreement. -/
theorem Scope.Agrees.function (h : s.Agrees layers) (name : String) (parameters : List Expr)
    (body : List Stmt) (returnType : Option String) (decorators : List String)
    (loc : Option Location) :
    (s.enterFunction (s.receiverInside decorators parameters)).Agrees
      ((Stmt.function name parameters body returnType decorators loc).layersInside layers) := by
  rw [Scope.receiverInside, Stmt.layersInside]
  have hkind : ¬ ScopeKind.function = .classBody := by decide
  cases hclass : inClassBody layers with
  | true =>
    -- the receiver of a method is one of its parameters
    rw [if_pos (h.kind.2 hclass), if_pos rfl]
    refine ⟨rfl, iff_of_false hkind (by simp [inClassBody, Layer.isClassBody]), ?_⟩
    refine h.bound.cons fun n bound heq => ?_
    obtain ⟨hn, rfl⟩ := Layer.method.inj heq
    exact List.mem_append_left _ (mem_of_methodReceiver hn)
  | false =>
    rw [if_neg (fun hc => by simp [h.kind.1 hc] at hclass), if_neg Bool.false_ne_true]
    refine ⟨h.receiver, iff_of_false hkind (by simp [inClassBody, Layer.isClassBody]), ?_⟩
    refine h.bound.cons fun n bound heq => ?_
    cases heq

/-- **One step.** The statements in a body are written in a scope that
agrees with their layers. -/
theorem Scope.Agrees.item (h : s.Agrees layers) {st c : Stmt} (hc : c ∈ st.items) :
    ∃ s', (s', c) ∈ st.inner s ∧ s'.Agrees (st.layersInside layers) := by
  cases st with
  | function name parameters body returnType decorators loc =>
    exact ⟨_, List.mem_map_of_mem hc, h.function name parameters body returnType decorators loc⟩
  | classDefinition name body arguments decorators loc =>
    refine ⟨_, List.mem_map_of_mem hc, rfl, ?_, h.bound.cons fun n bound heq => ?_⟩
    · simp [Stmt.layersInside, inClassBody, Layer.isClassBody, Scope.enterClass]
    · cases heq
  | conditional choices loc => exact ⟨s, List.mem_map_of_mem hc, h⟩
  | forLoop left right body loc => exact ⟨s, List.mem_map_of_mem hc, h⟩
  | whileLoop test body loc => exact ⟨s, List.mem_map_of_mem hc, h⟩
  | _ => cases hc

/-- **All the way down.** -/
theorem Stmt.Under.exists_holds {st inner : Stmt} {d : Nat} (h : st.Under layers d layers' inner)
    (hs : s.Agrees layers) : ∃ s', st.Holds s d s' inner ∧ s'.Agrees layers' := by
  induction h generalizing s with
  | self => exact ⟨s, .self, hs⟩
  | item hc _ ih =>
    obtain ⟨s₁, hmem, hagrees⟩ := hs.item hc
    obtain ⟨s', hholds, hs'⟩ := ih hagrees
    exact ⟨s', .of_inner hmem hholds, hs'⟩

theorem agrees_top : Scope.top.Agrees [] :=
  ⟨rfl, by simp [Scope.top, inClassBody], nofun⟩

/-! ## Where names are used -/

/-- An expression in which a statement uses names is written. -/
theorem mem_shows_of_uses {st : Stmt} {e : Expr} (hs : s.Agrees layers)
    (he : e ∈ st.uses layers) : e ∈ st.shows s := by
  cases st with
  | assignment left right operator type loc =>
    cases right with
    | none => cases he
    | some right =>
      simp only [Stmt.uses, ← hs.kind] at he
      exact he
  | function name parameters body returnType decorators loc =>
    obtain ⟨hmem, hdefault⟩ := List.mem_filter.1 he
    have hsingle : e.isSingle = false := by
      cases hs : e.isSingle with
      | false => rfl
      | true =>
        rw [(Expr.other_of_isSingle hs).2.1] at hdefault
        cases hdefault
    exact List.mem_filter.2 ⟨mem_passed hmem hsingle,
      by rw [Expr.not_isCollector_of_isDefaulted hdefault]; rfl⟩
  | conditional choices loc =>
    obtain ⟨⟨test, body⟩, hc, htest⟩ := List.mem_filterMap.1 he
    obtain rfl : test = some e := htest
    exact Choice.mem_tests.2 ⟨body, hc⟩
  | _ => exact he

/-- The places inside an expression see the same receiver. -/
theorem mem_shows_of_places {e : Expr} {q : List Layer × Expr} (hq : q ∈ e.places layers)
    (hb : ReceiversBound layers) :
    q.2 ∈ e.shows ∧ inForce q.1 = inForce layers ∧ ReceiversBound q.1 := by
  by_cases hlambda : ∃ parameters body loc, e = .lambda parameters body loc
  · obtain ⟨parameters, body, loc, rfl⟩ := hlambda
    rcases List.mem_append.1 hq with hq | hq
    · obtain ⟨c, hc, rfl⟩ := List.mem_map.1 hq
      obtain ⟨hmem, hdefault⟩ := List.mem_filter.1 hc
      refine ⟨List.mem_append_left _ (List.mem_filter.2 ⟨hmem, ?_⟩), rfl, hb⟩
      rw [Expr.not_isCollector_of_isDefaulted hdefault]
      rfl
    · obtain rfl := List.mem_singleton.1 hq
      exact ⟨List.mem_append_right _ (List.mem_singleton_self _), rfl, hb.cons nofun⟩
  · have hplaces : e.places layers = e.shows.map (layers, ·) := by
      unfold Expr.places
      split
      · exact absurd ⟨_, _, _, rfl⟩ hlambda
      · rfl
    rw [hplaces] at hq
    obtain ⟨c, hc, rfl⟩ := List.mem_map.1 hq
    exact ⟨hc, rfl, hb⟩

/-- **From an expression to what is read inside it**, through lambdas and
everything else. -/
theorem Expr.Reads.appears {e x : Expr} {n m : Nat} {r : Option String} {t : String}
    (h : e.Reads layers n layers' x) (he : e.Appears r m t) (hb : ReceiversBound layers) :
    x.Appears r (m + n) t ∧ inForce layers' = inForce layers ∧ ReceiversBound layers' := by
  induction h generalizing m with
  | self => exact ⟨he, rfl, hb⟩
  | part hq _ ih =>
    obtain ⟨hshows, hforce, hb'⟩ := mem_shows_of_places hq hb
    obtain ⟨happ, hforce', hb''⟩ := ih (he.part hshows) hb'
    rw [← Nat.add_assoc]
    exact ⟨happ, hforce'.trans hforce, hb''⟩

/-! ## How names are written -/

/-- **The expression is written `w` in the block of the statement**, under
the receiver `r`. -/
def Stmt.WritesIn (blocks : List String) (st : Stmt) (r : Option String) (e : Expr) (w : String) :
    Prop :=
  ∃ (f : Fragment) (s : Scope) (k : Nat), st.emit .top = .ok f ∧ assemble f.lines ∈ blocks ∧
    s.receiver = r ∧ e.emit s = .ok w ∧
    Occurs (Literal.releaseNewlines (hang k w)) (assemble f.lines)

/-- The name is written `this` exactly if the receiver in force is called
so, and else as it is converted. -/
structure NamedAs (name : String) (layers : List Layer) (w : String) : Prop where
  this_iff : w = "this" ↔ inForce layers = some name
  other : w ≠ "this" → w = Identifier.camel name

/-- How a name is written, by the receiver of its scope. -/
theorem emit_name {name w : String} {loc : Option Location}
    (h : (Expr.reference name none loc).emit s = .ok w) :
    (w = "this" ↔ s.receiver = some name) ∧ (w ≠ "this" → w = Identifier.camel name) := by
  obtain rfl := Except.ok.inj h
  by_cases hname : s.receiver = some name
  · rw [if_pos hname]
    exact ⟨iff_of_true rfl hname, fun hne => absurd rfl hne⟩
  · rw [if_neg hname]
    exact ⟨iff_of_false (camel_ne_this name) hname, fun _ => rfl⟩

theorem namedAs_of_emit {name w : String} {loc : Option Location}
    (hs : s.receiver = inForce layers) (h : (Expr.reference name none loc).emit s = .ok w) :
    NamedAs name layers w := by
  obtain ⟨hthis, hother⟩ := emit_name h
  exact ⟨hs ▸ hthis, hother⟩

/-- A name that a block shows is written there. -/
theorem exists_writesIn {blocks : List String} {st : Stmt} {f : Fragment} {name : String}
    {loc : Option Location} {r : Option String} {k : Nat} (hf : st.emit .top = .ok f)
    (hblock : assemble f.lines ∈ blocks) (hr : r = inForce layers)
    (h : (Expr.reference name none loc).Appears r k (unlines f.lines)) :
    ∃ w, st.WritesIn blocks (inForce layers) (.reference name none loc) w ∧
      NamedAs name layers w := by
  rcases h with ⟨s, w, hs, hw, hocc⟩ | ⟨⟨_, _, _, heq⟩, -⟩
  · exact ⟨w, ⟨f, s, k, hf, hblock, hs.trans hr, hw, hocc.releaseNewlines⟩,
      namedAs_of_emit (hs.trans hr) hw⟩
  · cases heq

/-! ## The module -/

/-- **Where `this` is written.** -/
structure Program.ThisIn (p : Program) (blocks : List String) : Prop where
  /-- A name that is used is written `this` exactly if the nearest method
  has a receiver of that name; it then stands for that receiver exactly
  if no function in between binds it. -/
  use : ∀ st ∈ p.body, ∀ (d n : Nat) (layers layers' : List Layer) (inner : Stmt) (e : Expr)
    (name : String) (loc : Option Location), st.Under [] d layers inner →
    e ∈ inner.uses layers → e.Reads layers n layers' (.reference name none loc) →
    ∃ w, st.WritesIn blocks (inForce layers') (.reference name none loc) w ∧
      NamedAs name layers' w ∧
      (w = "this" → (IsReceiver name layers' ↔ shadowed name layers' = false))
  /-- A parameter of a lambda is written like a use of its name outside
  the lambda, although it is a variable of its own. -/
  lambdaParameter : ∀ st ∈ p.body, ∀ (d n : Nat) (layers layers' : List Layer) (inner : Stmt)
    (e : Expr) (parameters : List Expr) (body : Expr) (name : String)
    (loc loc' : Option Location), st.Under [] d layers inner → e ∈ inner.uses layers →
    e.Reads layers n layers' (.lambda parameters body loc') →
    .reference name none loc ∈ parameters →
    ∃ w, st.WritesIn blocks (inForce layers') (.reference name none loc) w ∧
      NamedAs name layers' w
  /-- The same holds of a parameter that is passed to a function. -/
  parameter : ∀ st ∈ p.body, ∀ (d : Nat) (layers : List Layer) (function name : String)
    (parameters : List Expr) (body : List Stmt) (returnType : Option String)
    (decorators : List String) (loc loc' : Option Location),
    st.Under [] d layers (.function function parameters body returnType decorators loc') →
    .reference name none loc ∈
      (if inClassBody layers then methodPassed decorators parameters else parameters) →
    ∃ w, st.WritesIn blocks (inForce layers) (.reference name none loc) w ∧
      NamedAs name layers w

/-- **`this` goes by the name of the receiver.** -/
theorem this_written {p : Program} {blocks : List String} (h : p.blocks = .ok blocks) :
    p.ThisIn blocks := by
  obtain ⟨rest, hrest, rfl⟩ := blocks_eq_ok.1 h
  refine ⟨?_, ?_, ?_⟩
  -- a name that is used
  · intro st hst d n layers layers' inner e name loc hunder he hreads
    obtain ⟨s, hholds, hs⟩ := hunder.exists_holds agrees_top
    obtain ⟨f, hf, hblock, hshown⟩ :=
      shown_block hrest hst hholds (mem_shows_of_uses hs he)
    obtain ⟨happ, hforce, hb⟩ := hreads.appears (.inl hshown) hs.bound
    obtain ⟨w, hwrites, hnamed⟩ := exists_writesIn hf (List.mem_append_right _ hblock)
      (hs.receiver.trans hforce.symm) happ
    exact ⟨w, hwrites, hnamed, fun hthis => isReceiver_iff hb (hnamed.this_iff.1 hthis)⟩
  -- a parameter of a function without a name
  · intro st hst d n layers layers' inner e parameters body name loc loc' hunder he hreads hmem
    obtain ⟨s, hholds, hs⟩ := hunder.exists_holds agrees_top
    obtain ⟨f, hf, hblock, hshown⟩ :=
      shown_block hrest hst hholds (mem_shows_of_uses hs he)
    obtain ⟨happ, hforce, -⟩ := hreads.appears (.inl hshown) hs.bound
    have hpart : .reference name none loc ∈ (Expr.lambda parameters body loc').shows :=
      List.mem_append_left _ (List.mem_filter.2 ⟨hmem, rfl⟩)
    exact exists_writesIn hf (List.mem_append_right _ hblock)
      (hs.receiver.trans hforce.symm) (happ.part hpart)
  -- a parameter of a function
  · intro st hst d layers function name parameters body returnType decorators loc loc' hunder hmem
    obtain ⟨s, hholds, hs⟩ := hunder.exists_holds agrees_top
    have hpassed : .reference name none loc ∈ s.passed decorators parameters := by
      rw [Scope.passed]
      split at hmem
      · rename_i hclass
        rwa [if_pos (hs.kind.2 hclass)]
      · rename_i hclass
        rwa [if_neg (fun hkind => hclass (hs.kind.1 hkind))]
    obtain ⟨f, hf, hblock, hshown⟩ := shown_block hrest hst hholds
      (List.mem_filter.2 ⟨hpassed, rfl⟩)
    exact exists_writesIn hf (List.mem_append_right _ hblock) hs.receiver (.inl hshown)

/-! ## A method that returns a lambda -/

/-- A method with the receiver `self` that returns a function of `name`
whose value is `self`. -/
def selfTree (name : String) : Cst :=
  let leaf (n : String) : Cst := .leaf .identifier n none
  let token (t : String) : Cst := .leaf (.token t) t none
  .tree .moduleRoot [.tree .classDefinition [leaf "A", .tree .block [
    .tree .functionDefinition [leaf "m", .tree .parameters [leaf "self"] none,
      .tree .block [.tree .returnStatement [.tree .lambda [
        .tree .lambdaParameters [leaf name] none, token ":", leaf "self"] none] none] none] none]
    none] none] none

/-- The lambda of the tree. -/
def selfLambda (name : String) : Expr :=
  .lambda [.reference name none none] (.reference "self" none none) none

/-- The class of the tree. -/
def selfClass (name : String) : Stmt :=
  .classDefinition "A" [.function "m" [.reference "self" none none]
    [.returning (some (selfLambda name)) none] none [] none] none [] none

/-- The layers around the method's body. -/
def selfLayers : List Layer :=
  [.method (some "self") ["self"], .classBody ["m"]]

theorem under_selfClass (name : String) :
    (selfClass name).Under [] 2 selfLayers (.returning (some (selfLambda name)) none) :=
  .item (List.mem_singleton_self _) (.item (List.mem_singleton_self _) .self)

theorem reads_selfLambda (name : String) : (selfLambda name).Reads selfLayers 0
    (.function [name] :: selfLayers) (.reference "self" none none) :=
  .part (q := (.function [name] :: selfLayers, .reference "self" none none))
    (List.mem_append_right _ (List.mem_singleton_self _)) .self

/-- The block of the class, with what the parameter is written as. -/
def selfBlock (parameter : String) : String :=
  "class A \x7b\n  m() \x7b\n    return (" ++ parameter ++ ") => this\n  \x7d\n\x7d"

/-- In the lambda `lambda x: self` the receiver is written `this`. -/
theorem this_written_lambda :
    Program.blocks ⟨[selfClass "x"], none⟩ = .ok [selfBlock "x"] ∧
    Program.ThisIn ⟨[selfClass "x"], none⟩ [selfBlock "x"] ∧
    IsReceiver "self" (.function ["x"] :: selfLayers) ∧
    (selfClass "x").WritesIn [selfBlock "x"] (some "self") (.reference "self" none none)
      "this" := by
  have hblocks : Program.blocks ⟨[selfClass "x"], none⟩ = .ok [selfBlock "x"] :=
    Result.eq_ok_of_toOption (by decide +kernel)
  have hthis := this_written hblocks
  obtain ⟨w, hwrites, hnamed, -⟩ := hthis.use (selfClass "x") (List.mem_singleton_self _) 2 0
    selfLayers _ _ (selfLambda "x") "self" none (under_selfClass "x") (List.mem_singleton_self _)
    (reads_selfLambda "x")
  obtain rfl : w = "this" := hnamed.this_iff.2 rfl
  exact ⟨hblocks, hthis, ⟨["self"], rfl, by decide⟩, hwrites⟩

/-- **A lambda's own variable is written `this`.** In `lambda self: self`
the name is found in the lambda and not in the method; parameter and use
are written `this` all the same, and `self` nowhere. -/
theorem shadowing_this :
    ((selfTree "self").build "m").result = .ok ⟨[selfClass "self"], none⟩ ∧
    Program.blocks ⟨[selfClass "self"], none⟩ = .ok [selfBlock "this"] ∧
    (selfClass "self").Under [] 2 selfLayers (.returning (some (selfLambda "self")) none) ∧
    (selfLambda "self").Reads selfLayers 0 (.function ["self"] :: selfLayers)
      (.reference "self" none none) ∧
    resolve "self" (.function ["self"] :: selfLayers) = some (.function ["self"]) ∧
    ¬ IsReceiver "self" (.function ["self"] :: selfLayers) ∧
    Occurs "(this) => this" (selfBlock "this") ∧
    ¬ Occurs (Identifier.camel "self") (selfBlock "this") := by
  have hresolve : resolve "self" (.function ["self"] :: selfLayers)
      = some (.function ["self"]) := by decide
  refine ⟨rfl, Result.eq_ok_of_toOption (by decide +kernel), under_selfClass "self",
    reads_selfLambda "self", hresolve, ?_, by decide +kernel, by decide +kernel⟩
  rintro ⟨bound, -, hfound⟩
  rw [hresolve] at hfound
  cases hfound

end Scribe
