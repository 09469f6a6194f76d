import Scribe.Proofs.Emit.Receiver

/-!
# What `this` belongs to

In the output `this` belongs to the innermost method, declared function
or class body around it; arrow functions take it from around them. So a
`this` that is written for the receiver of a method keeps its meaning in
the method's own body and in arrow functions there. A function that is
declared inside the method has a `this` of its own, and the emitter
writes the receiver `this` there as well.

`Binder` names the constructs that matter, and the places of a program
are followed with the list of those around them: `Stmt.Encloses` goes
from a statement to the statements it holds, `Expr.Encloses` from an
expression to what is written of it. `this_owned` says for every place
how a name is written there, in the lines of each statement around it,
and that a `this` belongs to the method whose receiver it is written for
exactly if only arrow functions stand in between.
-/

namespace Scribe

open Text

/-! ## Constructs that have a `this` -/

/-- A construct of the output, as far as `this` is concerned. -/
inductive Binder where
  /-- A class body, where fields get their values. -/
  | classBody
  /-- A method, with the name of the receiver. In the parameter list of
  the method the receiver has no name yet. -/
  | method (receiver : Option String)
  /-- A function that is declared outside class bodies. -/
  | function
  /-- A function without a name. -/
  | arrow
  deriving DecidableEq, Repr

/-- The construct is a method. -/
def Binder.isMethod : Binder → Bool
  | method _ => true
  | _ => false

/-- **What `this` belongs to**, at a place with these constructs around
it, the innermost first. -/
def thisOwner : List Binder → Option Binder
  | .arrow :: bs => thisOwner bs
  | bs => bs.head?

/-- The name that is written `this` at a place. Functions inside a method
take it over from the method. -/
def thisName : List Binder → Option String
  | .method receiver :: _ => receiver
  | .function :: bs => thisName bs
  | .arrow :: bs => thisName bs
  | _ => none

/-- The constructs between a place and the nearest method. -/
def belowMethod (bs : List Binder) : List Binder :=
  bs.takeWhile (!·.isMethod)

/-- **`this` belongs to the method whose receiver it is written for
exactly if only arrow functions stand in between.** -/
theorem thisOwner_eq_iff {bs : List Binder} {name : String} (h : thisName bs = some name) :
    thisOwner bs = some (.method (some name)) ↔ ∀ b ∈ belowMethod bs, b = .arrow := by
  induction bs with
  | nil => cases h
  | cons b bs ih =>
    cases b with
    | classBody => cases h
    | method receiver =>
      obtain rfl : receiver = some name := h
      simp [thisOwner, belowMethod, Binder.isMethod]
    | function => simp [thisOwner, belowMethod, Binder.isMethod]
    | arrow =>
      have hbelow : belowMethod (.arrow :: bs) = .arrow :: belowMethod bs := rfl
      rw [thisOwner, ih h, hbelow, List.forall_mem_cons]
      exact (and_iff_right rfl).symm

/-! ## Places -/

/-- The constructs around the statements in the bodies of a statement,
where those around it are given. -/
def Stmt.bindersInside (bs : List Binder) : Stmt → List Binder
  | .function _ parameters _ _ decorators _ =>
    (if bs.head? = some .classBody then .method (methodReceiver decorators parameters)
      else .function) :: bs
  | .classDefinition .. => .classBody :: bs
  | _ => bs

/-- The constructs around the expressions of a statement. Those of a
function stand in its parameter list. -/
def Stmt.bindersAt (bs : List Binder) : Stmt → List Binder
  | .function .. => (if bs.head? = some .classBody then .method none else .function) :: bs
  | _ => bs

/-- The constructs around the parts of an expression. -/
def Expr.bindersInside (bs : List Binder) : Expr → List Binder
  | .lambda .. => .arrow :: bs
  | _ => bs

/-- **What stands inside a statement, and in which constructs.** The
statement stands in `bs` and holds `inner` inside `d` bodies. -/
inductive Stmt.Encloses : List Binder → Stmt → Nat → List Binder → Stmt → Prop
  | self {bs : List Binder} {st : Stmt} : Stmt.Encloses bs st 0 bs st
  | item {bs bs' : List Binder} {st c inner : Stmt} {d : Nat} : c ∈ st.items →
      Stmt.Encloses (st.bindersInside bs) c d bs' inner → Stmt.Encloses bs st (d + 1) bs' inner

/-- **What is written of an expression, and in which constructs.** The
expression stands in `bs` and shows `x`, moved in by `n` levels. -/
inductive Expr.Encloses : List Binder → Expr → Nat → List Binder → Expr → Prop
  | self {bs : List Binder} {e : Expr} : Expr.Encloses bs e 0 bs e
  | part {bs bs' : List Binder} {e c x : Expr} {n : Nat} : c ∈ e.shows →
      Expr.Encloses (e.bindersInside bs) c n bs' x → Expr.Encloses bs e (e.shift + n) bs' x

/-! ## Scopes of the emitter -/

variable {s s' : Scope} {bs bs' : List Binder}

/-- **The scope is that of a place** with these constructs around it. -/
structure Scope.StandsIn (s : Scope) (bs : List Binder) : Prop where
  receiver : s.receiver = thisName bs
  kind : s.kind = .classBody ↔ bs.head? = some .classBody

/-- The expressions that a statement writes itself, in the constructs
`bs`: which these are depends only on whether it is a member of a
class. -/
def Stmt.showsIn (bs : List Binder) (st : Stmt) : List Expr :=
  st.shows (if bs.head? = some .classBody then Scope.top.enterClass "" else .top)

theorem Stmt.shows_congr {st : Stmt} (h : s.kind = .classBody ↔ s'.kind = .classBody) :
    st.shows s = st.shows s' := by
  cases st with
  | assignment left right operator type loc =>
    cases right with
    | none => rfl
    | some right => simp only [Stmt.shows, h]
  | function name parameters body returnType decorators loc =>
    simp only [Stmt.shows, Scope.passed, h]
  | _ => rfl

theorem Scope.StandsIn.shows_eq (h : s.StandsIn bs) (st : Stmt) : st.shows s = st.showsIn bs := by
  refine Stmt.shows_congr (h.kind.trans ?_)
  by_cases hclass : bs.head? = some .classBody
  · simp [hclass, Scope.enterClass]
  · simp [hclass, Scope.top]

/-- **One step.** The statements in a body are written in the scope of
their place. -/
theorem Scope.StandsIn.item (h : s.StandsIn bs) {st c : Stmt} (hc : c ∈ st.items) :
    ∃ s', (s', c) ∈ st.inner s ∧ s'.StandsIn (st.bindersInside bs) := by
  cases st with
  | function name parameters body returnType decorators loc =>
    refine ⟨_, List.mem_map_of_mem hc, ?_⟩
    rw [Scope.receiverInside, Stmt.bindersInside]
    by_cases hclass : bs.head? = some .classBody
    · rw [if_pos (h.kind.2 hclass), if_pos hclass]
      exact ⟨rfl, iff_of_false (by simp [Scope.enterFunction]) (by simp)⟩
    · rw [if_neg (mt h.kind.1 hclass), if_neg hclass]
      exact ⟨h.receiver, iff_of_false (by simp [Scope.enterFunction]) (by simp)⟩
  | classDefinition name body arguments decorators loc =>
    exact ⟨_, List.mem_map_of_mem hc, rfl, iff_of_true rfl rfl⟩
  | conditional choices loc => exact ⟨s, List.mem_map_of_mem hc, h⟩
  | forLoop left right body loc => exact ⟨s, List.mem_map_of_mem hc, h⟩
  | whileLoop test body loc => exact ⟨s, List.mem_map_of_mem hc, h⟩
  | _ => cases hc

/-- **All the way down.** -/
theorem Stmt.Encloses.exists_holds {st inner : Stmt} {d : Nat} (h : st.Encloses bs d bs' inner)
    (hs : s.StandsIn bs) : ∃ s', st.Holds s d s' inner ∧ s'.StandsIn bs' := by
  induction h generalizing s with
  | self => exact ⟨s, .self, hs⟩
  | item hc _ ih =>
    obtain ⟨s₁, hmem, hstands⟩ := hs.item hc
    obtain ⟨s', hholds, hs'⟩ := ih hstands
    exact ⟨s', .of_inner hmem hholds, hs'⟩

/-- In the parameter list of a function the same name is written `this`
as around the function. -/
theorem thisName_bindersAt (st : Stmt) : thisName (st.bindersAt bs) = thisName bs := by
  cases st with
  | function name parameters body returnType decorators loc =>
    rw [Stmt.bindersAt]
    by_cases hclass : bs.head? = some .classBody
    · obtain ⟨bs, rfl⟩ : ∃ rest, bs = .classBody :: rest := by
        cases bs with
        | nil => cases hclass
        | cons b rest => exact ⟨rest, by rw [Option.some.inj hclass]⟩
      rfl
    · rw [if_neg hclass]
      rfl
  | _ => rfl

/-- **From an expression to what is written inside it**: the receiver is
the same all the way down. -/
theorem Expr.Encloses.appears {e x : Expr} {n m : Nat} {r : Option String} {t : String}
    (h : e.Encloses bs n bs' x) (he : e.Appears r m t) :
    x.Appears r (m + n) t ∧ thisName bs' = thisName bs := by
  induction h generalizing m with
  | self => exact ⟨he, rfl⟩
  | @part bs bs' e c x n hc _ ih =>
    obtain ⟨happ, hname⟩ := ih (he.part hc)
    have hinside : thisName (e.bindersInside bs) = thisName bs := by
      cases e <;> rfl
    rw [← Nat.add_assoc]
    exact ⟨happ, hname.trans hinside⟩

/-! ## The module -/

/-- **The text `w` stands on the lines of the statement `outer`**, which
stands in `bs`, and these lines stand together in the block of the
top-level statement `st`, `d` levels deep. -/
def Stmt.WritesOn (blocks : List String) (st : Stmt) (d : Nat) (bs : List Binder) (outer : Stmt)
    (w : String) : Prop :=
  ∃ (f g : Fragment) (s : Scope) (k : Nat), st.emit .top = .ok f ∧ assemble f.lines ∈ blocks ∧
    s.StandsIn bs ∧ outer.emit s = .ok g ∧ indent d g.lines <:+: indent 0 f.lines ∧
    Occurs (hang k w) (unlines g.lines)

/-- **Where `this` is written, and what it belongs to.** -/
structure Program.ThisOwned (p : Program) (blocks : List String) : Prop where
  /-- A function outside class bodies is declared with `function`, so it
  has a `this` of its own. -/
  declared : ∀ st ∈ p.body, ∀ (d : Nat) (bs : List Binder) (name : String)
    (parameters : List Expr) (body : List Stmt) (returnType : Option String)
    (decorators : List String) (loc : Option Location),
    st.Encloses [] d bs (.function name parameters body returnType decorators loc) →
    bs.head? ≠ some .classBody →
    ∃ rest, st.WritesOn blocks d bs (.function name parameters body returnType decorators loc)
      ("function " ++ Identifier.camel name ++ "(" ++ rest)
  /-- A name is written `this` exactly if the nearest method has a
  receiver of that name, on the lines of every statement around it. The
  `this` belongs to that method exactly if the place is in the method's
  own body or in arrow functions there. -/
  written : ∀ st ∈ p.body, ∀ (d d' n : Nat) (bs bs' bs'' : List Binder) (outer inner : Stmt)
    (e : Expr) (name : String) (loc : Option Location), st.Encloses [] d bs outer →
    outer.Encloses bs d' bs' inner → e ∈ inner.showsIn bs' →
    e.Encloses (inner.bindersAt bs') n bs'' (.reference name none loc) →
    ∃ w, st.WritesOn blocks d bs outer w ∧ (w = "this" ↔ thisName bs'' = some name) ∧
      (w ≠ "this" → w = Identifier.camel name) ∧
      (w = "this" → (thisOwner bs'' = some (.method (some name)) ↔
        ∀ b ∈ belowMethod bs'', b = .arrow))

theorem standsIn_top : Scope.top.StandsIn [] :=
  ⟨rfl, iff_of_false nofun nofun⟩

/-- A statement of a written module was written, and its lines stand
together in a block. -/
theorem exists_lines {p : Program} {blocks : List String} {st outer : Stmt} {d : Nat}
    (h : p.blocks = .ok blocks) (hst : st ∈ p.body) (hd : st.Encloses [] d bs outer) :
    ∃ f g s, st.emit .top = .ok f ∧ f.blocks <:+: blocks ∧ s.StandsIn bs ∧
      outer.emit s = .ok g ∧ indent d g.lines <:+: indent 0 f.lines := by
  obtain ⟨rest, hrest, rfl⟩ := blocks_eq_ok.1 h
  obtain ⟨f, hf, hblocks⟩ := statementBlocks_mem hrest hst
  obtain ⟨s, hholds, hs⟩ := hd.exists_holds standsIn_top
  obtain ⟨g, hg, hlines⟩ := hholds.infix_lines hf
  exact ⟨f, g, s, hf, List.infix_append_of_infix_right hblocks, hs, hg, hlines⟩

/-- **`this` belongs to the method it is written for where no declared
function comes in between.** -/
theorem this_owned {p : Program} {blocks : List String} (h : p.blocks = .ok blocks) :
    p.ThisOwned blocks := by
  refine ⟨?_, ?_⟩
  -- functions in front of their bodies
  · intro st hst d bs name parameters body returnType decorators loc hd hclass
    obtain ⟨f, g, s, hf, hblocks, hs, hg, hlines⟩ := exists_lines h hst hd
    obtain ⟨slots, texts, definition, b, returns, -, -, -, -, rfl⟩ := emit_function hg
    have hkind : s.kind ≠ .classBody := mt hs.kind.1 hclass
    have hne : f.lines ≠ [] := ne_nil_of_infix_indent hlines (by simp [braced])
    refine ⟨", ".intercalate texts ++ ")" ++ returns ++ " \x7b", f, _, s, 0, hf,
      hblocks.subset (assemble_mem_blocks hne), hs, hg, hlines, ?_⟩
    rw [hang_zero]
    refine occurs_unlines (Occurs.refl _) (List.mem_append_right _ ?_)
    rw [braced, functionHeader_eq hkind]
    simp only [String.append_assoc]
    exact List.mem_cons_self ..
  -- names inside them
  · intro st hst d d' n bs bs' bs'' outer inner e name loc hd hd' he hn
    obtain ⟨f, g, s, hf, hblocks, hs, hg, hlines⟩ := exists_lines h hst hd
    obtain ⟨s', hholds, hs'⟩ := hd'.exists_holds hs
    rw [← hs'.shows_eq] at he
    obtain ⟨hne, hshown⟩ := hholds.shownOn hg he
    obtain ⟨happ, hname⟩ := hn.appears (.inl hshown)
    rcases happ with ⟨s'', w, hs'', hw, hocc⟩ | ⟨⟨_, _, _, heq⟩, -⟩
    · have hreceiver : s''.receiver = thisName bs'' := by
        rw [hs'', hs'.receiver, hname, thisName_bindersAt]
      obtain ⟨hthis, hother⟩ := emit_name hw
      rw [hreceiver] at hthis
      have hblock : assemble f.lines ∈ blocks :=
        hblocks.subset (assemble_mem_blocks (ne_nil_of_infix_indent hlines hne))
      exact ⟨w, ⟨f, g, s, _, hf, hblock, hs, hg, hlines, hocc⟩, hthis, hother,
        fun hw => thisOwner_eq_iff (hthis.1 hw)⟩
    · cases heq

/-! ## A function inside a method -/

/-- A function without parameters that returns `self`. -/
def innerFunction : Stmt :=
  .function "g" [] [.returning (some (.reference "self" none none)) none] none [] none

/-- A lambda without parameters whose value is `self`. -/
def innerLambda : Expr :=
  .lambda [] (.reference "self" none none) none

/-- A class with a method that declares the function and returns the
lambda. -/
def nestedClass : Stmt :=
  .classDefinition "A" [.function "m" [.reference "self" none none]
    [innerFunction, .returning (some innerLambda) none] none [] none] none [] none

/-- The tree of the class. -/
def nestedTree : Cst :=
  let leaf (n : String) : Cst := .leaf .identifier n none
  let function (name : String) (parameters body : List Cst) : Cst :=
    .tree .functionDefinition
      [leaf name, .tree .parameters parameters none, .tree .block body none] none
  .tree .moduleRoot [.tree .classDefinition [leaf "A", .tree .block [
    function "m" [leaf "self"] [
      function "g" [] [.tree .returnStatement [leaf "self"] none],
      .tree .returnStatement [.tree .lambda [leaf "self"] none] none]] none] none] none

/-- The constructs around the method's body. -/
def methodBinders : List Binder :=
  [.method (some "self"), .classBody]

/-- The lines of the inner function. -/
def innerLines : List String :=
  ["function g() \x7b", "  return this", "\x7d"]

/-- The lines of the class. -/
def nestedLines : List String :=
  "class A \x7b" :: "  m() \x7b" :: indent 2 innerLines
    ++ ["    return () => this", "  \x7d", "\x7d"]

theorem emit_nestedClass : nestedClass.emit .top = .ok ⟨nestedLines, []⟩ :=
  Result.eq_ok_of_toOption (by decide +kernel)

theorem blocks_nestedClass :
    Program.blocks ⟨[nestedClass], none⟩ = .ok [assemble nestedLines] := by
  refine blocks_eq_ok.2 ⟨[assemble nestedLines], ?_, rfl⟩
  rw [statementBlocks, emit_nestedClass]
  rfl

/-- What the method's body holds is two bodies deep in the class. -/
theorem encloses_nestedClass {st : Stmt} (h : st ∈ [innerFunction, .returning innerLambda none]) :
    nestedClass.Encloses [] 2 methodBinders st :=
  .item (List.mem_singleton_self _) (.item h .self)

/-- In the lambda the receiver is written `this`, and the `this` belongs
to the method. -/
theorem this_owned_lambda :
    Program.blocks ⟨[nestedClass], none⟩ = .ok [assemble nestedLines] ∧
    Program.ThisOwned ⟨[nestedClass], none⟩ [assemble nestedLines] ∧
    nestedClass.WritesOn [assemble nestedLines] 2 methodBinders (.returning innerLambda none)
      "this" ∧
    thisOwner (.arrow :: methodBinders) = some (.method (some "self")) := by
  have howned := this_owned blocks_nestedClass
  have hplace : innerLambda.Encloses methodBinders 0 (.arrow :: methodBinders)
      (.reference "self" none none) :=
    .part (List.mem_singleton_self _) .self
  obtain ⟨w, hwrites, hthis, -, howner⟩ := howned.written nestedClass (List.mem_singleton_self _)
    2 0 0 methodBinders methodBinders _ _ _ innerLambda "self" none
    (encloses_nestedClass (List.mem_cons_of_mem _ (List.mem_singleton_self _))) .self
    (List.mem_singleton_self _) hplace
  obtain rfl : w = "this" := hthis.2 rfl
  exact ⟨blocks_nestedClass, howned, hwrites, (howner rfl).2 (by decide)⟩

/-- **A declared function has a `this` of its own.** In the function `g`
inside the method the receiver is written `this`, on the lines of `g`,
and there `this` belongs to `g` and not to the method. -/
theorem declared_function_rebinds :
    (nestedTree.build "m").result = .ok ⟨[nestedClass], none⟩ ∧
    Program.blocks ⟨[nestedClass], none⟩ = .ok [assemble nestedLines] ∧
    nestedClass.Encloses [] 2 methodBinders innerFunction ∧
    innerFunction.Encloses methodBinders 1 (.function :: methodBinders)
      (.returning (some (.reference "self" none none)) none) ∧
    nestedClass.WritesOn [assemble nestedLines] 2 methodBinders innerFunction "this" ∧
    thisName (.function :: methodBinders) = some "self" ∧
    thisOwner (.function :: methodBinders) = some .function ∧
    thisOwner (.function :: methodBinders) ≠ some (.method (some "self")) := by
  refine ⟨rfl, blocks_nestedClass, encloses_nestedClass (List.mem_cons_self ..),
    .item (List.mem_singleton_self _) .self, ?_, rfl, rfl, by decide⟩
  have hlines : indent 2 innerLines <:+: indent 0 nestedLines := by decide +kernel
  exact ⟨⟨nestedLines, []⟩, ⟨innerLines, []⟩, Scope.top.enterFunction (some "self"), 0,
    emit_nestedClass, List.mem_singleton_self _, ⟨rfl, iff_of_false nofun nofun⟩,
    Result.eq_ok_of_toOption (by decide +kernel), hlines, by decide +kernel⟩

end Scribe
