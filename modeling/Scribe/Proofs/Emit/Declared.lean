import Scribe.Proofs.Emit.Hoisting
import Scribe.Proofs.Emit.OnePass.Statement

/-!
# Which bound names are declared

A body binds the names its assignments and loops assign to. `Binds`
reads them off the syntax, with the star of those that collect several
elements; nothing in it refers to what the emitter records.

`bound_declared` compares the two for every program that was built and
written. In every scope each name bound without a star is declared in
front of the body, or passed as a parameter, or defined as a function or
class. A star is no reason to declare a name: a starred one is declared
only where an annotation or another binding brings in the same written
name, and `starred_undeclared` is a program where nothing does.
-/

namespace Scribe

/-! ## What a body binds -/

/-- What a statement gives a value to. -/
def Stmt.target? : Stmt → Option Expr
  | .assignment left right _ _ _ => if right.isSome then some left else none
  | .forLoop left _ _ _ => some left
  | _ => none

/-- **The body binds the name**: a statement in its scope gives it a
value, directly or through the items of a sequence. The star is the one
it has there. -/
def Binds (body : List Stmt) (splat : Option Splat) (name : String) : Prop :=
  ∃ st ∈ Stmt.bodyInScope body, ∃ left ∈ st.target?, ∃ loc,
    Expr.reference name splat loc ∈ left.leaves

/-- The body annotates the name with a type, with or without a value. -/
def Annotates (body : List Stmt) (name : String) : Prop :=
  ∃ st ∈ Stmt.bodyInScope body, ∃ splat loc,
    st.left? = some (.reference name splat loc) ∧ (denotedType st.annotation?).isSome = true

/-- A name calls for a declaration: it is annotated, or it is bound
without a star and does not stand for the receiver. -/
def CallsFor (receiver : Option String) (body : List Stmt) (name : String) : Prop :=
  Annotates body name ∨ Binds body none name ∧ receiver ≠ some name

theorem mem_map_assigned {receiver : Option String} {left : Expr} {n : String} :
    n ∈ (left.assigned receiver).map (·.1) ↔ ∃ name loc,
      Expr.reference name none loc ∈ left.leaves ∧ receiver ≠ some name ∧
        Identifier.camel name = n := by
  have hnames : (left.assigned receiver).map (·.1) =
      left.leaves.filterMap (Expr.assignedName? receiver) := by
    rw [Expr.assigned, List.map_map]
    exact List.map_id _
  rw [hnames, List.mem_filterMap]
  constructor
  · rintro ⟨e, he, hn⟩
    unfold Expr.assignedName? at hn
    split at hn
    · split at hn
      · cases hn
      · exact ⟨_, _, he, ‹_›, Option.some.inj hn⟩
    · cases hn
  · rintro ⟨name, loc, he, hr, hn⟩
    exact ⟨_, he, by rw [Expr.assignedName?, if_neg hr, hn]⟩

theorem mem_map_annotated {left : Expr} {type : Option String} {n : String} :
    n ∈ (left.annotated type).map (·.1) ↔ ∃ name splat loc,
      left = .reference name splat loc ∧ (denotedType type).isSome = true ∧
        Identifier.camel name = n := by
  cases left with
  | reference name splat loc =>
    rw [Expr.annotated]
    cases denotedType type with
    | none => simp
    | some t => simp [eq_comm]
  | _ => simp [Expr.annotated]

/-- What a statement records, as names. -/
theorem mem_map_records {receiver : Option String} {st : Stmt} {n : String} :
    n ∈ (st.records receiver).map (·.1) ↔
      (∃ name splat loc, st.left? = some (.reference name splat loc) ∧
        (denotedType st.annotation?).isSome = true ∧ Identifier.camel name = n) ∨
      ∃ left ∈ st.target?, ∃ name loc, Expr.reference name none loc ∈ left.leaves ∧
        receiver ≠ some name ∧ Identifier.camel name = n := by
  cases st with
  | assignment left right operator type loc =>
    rw [Stmt.records, List.map_append, List.mem_append, mem_map_annotated]
    cases right with
    | none => simp [Stmt.left?, Stmt.annotation?, Stmt.target?]
    | some e =>
      simp only [Option.isSome_some, if_true, mem_map_assigned, Stmt.left?, Stmt.annotation?,
        Stmt.target?, Option.some.injEq, Option.mem_def, exists_eq_left']
  | forLoop left right body loc =>
    rw [Stmt.records, mem_map_assigned]
    simp [Stmt.annotation?, Stmt.target?, denotedType]
  | _ => simp [Stmt.records, Stmt.left?, Stmt.target?]

/-- **What is recorded is what calls for a declaration.** -/
theorem mem_map_recorded {receiver : Option String} {body : List Stmt} {n : String} :
    n ∈ (recorded receiver body).map (·.1) ↔
      ∃ name, Identifier.camel name = n ∧ CallsFor receiver body name := by
  rw [recorded, List.map_flatMap, List.mem_flatMap]
  constructor
  · rintro ⟨st, hst, hn⟩
    rcases mem_map_records.1 hn with ⟨name, splat, loc, hleft, htype, hn⟩ |
      ⟨left, hleft, name, loc, hleaf, hr, hn⟩
    · exact ⟨name, hn, .inl ⟨st, hst, splat, loc, hleft, htype⟩⟩
    · exact ⟨name, hn, .inr ⟨⟨st, hst, left, hleft, loc, hleaf⟩, hr⟩⟩
  · rintro ⟨name, hn, ⟨st, hst, splat, loc, hleft, htype⟩ |
      ⟨⟨st, hst, left, hleft, loc, hleaf⟩, hr⟩⟩
    · exact ⟨st, hst, mem_map_records.2 (.inl ⟨name, splat, loc, hleft, htype, hn⟩)⟩
    · exact ⟨st, hst, mem_map_records.2 (.inr ⟨left, hleft, name, loc, hleaf, hr, hn⟩)⟩

/-! ## What a scope declares -/

/-- The declarations of names in a body, each with its last type. -/
def letLines (receiver : Option String) (body : List Stmt) (names : List String) : List String :=
  names.map fun n => letLine n (lastType (recorded receiver body) n)

/-- **A scope declares what it binds**, up to the star: `names` in front
of the body, and the others as parameters, functions and classes. -/
structure DeclaresBound (receiver : Option String) (passed : List Expr) (body : List Stmt)
    (names : List String) : Prop where
  /-- A name without a star is declared, unless it is the receiver. -/
  plain : ∀ name, Binds body none name → receiver ≠ some name →
    Identifier.camel name ∈ names ∨ Taken passed body (Identifier.camel name)
  /-- A starred one is declared exactly if its written name is for
  another reason. -/
  starred : ∀ name splat, Binds body (some splat) name →
    (Identifier.camel name ∈ names ∨ Taken passed body (Identifier.camel name) ↔
      Taken passed body (Identifier.camel name) ∨
        ∃ other, Identifier.camel other = Identifier.camel name ∧ CallsFor receiver body other)

theorem declaresBound_of_mem {receiver : Option String} {passed : List Expr} {body : List Stmt}
    {names : List String}
    (h : ∀ n, n ∈ names ↔ n ∈ (recorded receiver body).map (·.1) ∧ ¬ Taken passed body n) :
    DeclaresBound receiver passed body names := by
  have hmem : ∀ n, n ∈ names ∨ Taken passed body n ↔
      Taken passed body n ∨ ∃ name, Identifier.camel name = n ∧ CallsFor receiver body name := by
    intro n
    rw [h, mem_map_recorded]
    by_cases hn : Taken passed body n
    · simp [hn]
    · simp [hn]
  refine ⟨fun name hname hr => ?_, fun name splat _ => hmem _⟩
  exact (hmem _).2 (.inr ⟨name, rfl, .inr ⟨hname, hr⟩⟩)

/-- The declarations of a well formed body declare what it binds. -/
theorem declaresBound_declarations (receiver : Option String) (passed : List Expr)
    {body : List Stmt} (h : ∀ s ∈ body, s.fits = true) :
    ∃ names, declarations receiver (boundNames passed ++ declaredNames body) body =
        letLines receiver body names ∧
      DeclaresBound receiver passed body names := by
  obtain ⟨names, hmem, -, hlines⟩ := hoists_declarations receiver passed h
  exact ⟨names, hlines, declaresBound_of_mem hmem⟩

/-! ## Where the declarations stand -/

/-- A function at any depth of a written module stands in one piece in
the block of its top-level statement: its opening line, its declarations
and the lines of its body. -/
theorem exists_function_lines {top : List Stmt} {rest : List String} {st : Stmt} {d : Nat}
    {s : Scope} {name : String} {parameters : List Expr} {body : List Stmt}
    {returnType : Option String} {decorators : List String} {loc : Option Location}
    (hrest : statementBlocks top = .ok rest) (hst : st ∈ top)
    (hholds : st.Holds .top d s (.function name parameters body returnType decorators loc)) :
    ∃ (f b : Fragment) (texts before after : List String) (returns : String),
      Stmt.emitBody (s.enterFunction (s.receiverInside decorators parameters)) body = .ok b ∧
      st.emit .top = .ok f ∧ assemble f.lines ∈ rest ∧
      indent 0 f.lines = before ++ indent d (decoratorLines decorators)
        ++ indent d [s.functionHeader name decorators texts returns]
        ++ indent (d + 1) (declarations (s.receiverInside decorators parameters)
          (boundNames (s.passed decorators parameters) ++ declaredNames body) body)
        ++ indent (d + 1) b.lines ++ indent d ["\x7d"] ++ after := by
  obtain ⟨f, hf, hin⟩ := statementBlocks_mem hrest hst
  obtain ⟨g, hg, before, after, hlines⟩ := hholds.infix_lines hf
  obtain ⟨slots, texts, definition, b, returns, _, _, hb, _, rfl⟩ := emit_function hg
  refine ⟨f, b, texts, before, after, returns, hb, hf, hin.subset (assemble_mem_blocks ?_), ?_⟩
  · intro hnil
    simp [hnil, indent_braced] at hlines
  · rw [← hlines]
    simp [indent_braced]

/-- **The scopes of the program declare what they bind.** -/
structure Program.DeclaresBound (p : Program) (blocks : List String) : Prop where
  /-- The declarations of the top level stand in front, in a block of
  their own. -/
  top : ∃ names rest, Scribe.DeclaresBound none [] p.body names ∧
    statementBlocks p.body = .ok rest ∧
    blocks = (if names = [] then [] else [Text.unlines (letLines none p.body names)]) ++ rest
  /-- Those of a function at any depth stand behind its opening line, in
  front of its body. -/
  function : ∀ st ∈ p.body, ∀ (d : Nat) (s : Scope) (name : String) (parameters : List Expr)
    (body : List Stmt) (returnType : Option String) (decorators : List String)
    (loc : Option Location),
    st.Holds .top d s (.function name parameters body returnType decorators loc) →
    ∃ (f b : Fragment) (names texts before after : List String) (returns : String),
      Scribe.DeclaresBound (s.receiverInside decorators parameters)
        (s.passed decorators parameters) body names ∧
      Stmt.emitBody (s.enterFunction (s.receiverInside decorators parameters)) body = .ok b ∧
      st.emit .top = .ok f ∧ assemble f.lines ∈ blocks ∧
      indent 0 f.lines = before ++ indent d (decoratorLines decorators)
        ++ indent d [s.functionHeader name decorators texts returns]
        ++ indent (d + 1) (letLines (s.receiverInside decorators parameters) body names)
        ++ indent (d + 1) b.lines ++ indent d ["\x7d"] ++ after

/-- **Names bound without a star are declared, starred ones are not.**
Whatever was built and written declares, in each of its scopes, the
names that the scope binds without a star; a starred one only if its
written name is declared anyway. -/
theorem bound_declared {file : String} {tree : Cst} {p : Program} {blocks : List String}
    (hp : (tree.build file).result = .ok p) (hblocks : p.blocks = .ok blocks) :
    p.DeclaresBound blocks := by
  obtain ⟨rest, hrest, rfl⟩ := blocks_eq_ok.1 hblocks
  have hfits := Cst.fits_of_build hp
  constructor
  · obtain ⟨names, hmem, -, hlines⟩ := hoists_declarations_module hfits
    refine ⟨names, rest, declaresBound_of_mem hmem, hrest, ?_⟩
    rw [declarationBlock_eq, hlines, ← letLines]
    simp only [letLines, List.isEmpty_iff, List.map_eq_nil_iff]
  · intro st hst d s name parameters body returnType decorators loc hholds
    obtain ⟨f, b, texts, before, after, returns, hb, hf, hin, hlines⟩ :=
      exists_function_lines hrest hst hholds
    have hbody := hholds.fits (hfits st hst)
    simp only [Stmt.fits, Bool.and_eq_true, Stmt.allFit_iff] at hbody
    obtain ⟨names, hlets, hnames⟩ := declaresBound_declarations
      (s.receiverInside decorators parameters) (s.passed decorators parameters) hbody.2
    rw [hlets] at hlines
    exact ⟨f, b, names, texts, before, after, returns, hnames, hb, hf,
      List.mem_append_right _ hin, hlines⟩

/-! ## A starred name -/

/-- A list that is taken apart into its first element and the others, and
a function that does the same with a parameter of its own. -/
def splitTree : Cst :=
  let name (n : String) : Cst := .leaf .identifier n none
  let token (t : String) : Cst := .leaf (.token t) t none
  let split (first others container : String) : Cst :=
    .tree .expressionStatement [.tree .assignment [
      .tree .patternList [name first, token ",",
        .tree .listSplatPattern [token "*", name others] none] none,
      token "=", name container] none] none
  .tree .moduleRoot [
    split "first" "rest" "xs",
    .tree .functionDefinition [name "f", .tree .parameters [name "xs"] none,
      .tree .block [split "head" "xs" "xs"] none] none] none

/-- The program of the tree. -/
def splitProgram : Program :=
  let name (n : String) : Expr := .reference n none none
  let split (first others container : String) : Stmt :=
    .assignment (.sequence .pattern [some (name first),
      some (.reference others (some .list) none)] none) (some (name container)) "=" none none
  ⟨[split "first" "rest" "xs", .function "f" [name "xs"] [split "head" "xs" "xs"] none [] none],
    none⟩

/-- The blocks of the program. -/
def splitBlocks : List String :=
  ["let first", ";[first, ...rest] = xs",
    "function f(xs) \x7b\n  let head\n  ;[head, ...xs] = xs\n\x7d"]

theorem build_splitTree : (splitTree.build "m").result = .ok splitProgram := rfl

theorem blocks_splitProgram : splitProgram.blocks = .ok splitBlocks :=
  Result.eq_ok_of_toOption (by decide +kernel)

/-- In the program above the starred name of the function is declared,
since it is a parameter as well. -/
theorem bound_declared_split : (splitTree.build "m").result = .ok splitProgram ∧
    splitProgram.blocks = .ok splitBlocks ∧ splitProgram.DeclaresBound splitBlocks :=
  ⟨build_splitTree, blocks_splitProgram, bound_declared build_splitTree blocks_splitProgram⟩

/-- **A starred name is left undeclared.** The module binds `rest`, which
no function or class of it is called, and nothing that is written
declares it. -/
theorem starred_undeclared : (splitTree.build "m").result = .ok splitProgram ∧
    splitProgram.blocks = .ok splitBlocks ∧ Binds splitProgram.body (some .list) "rest" ∧
    ¬ Taken [] splitProgram.body (Identifier.camel "rest") ∧
    ∀ block ∈ splitBlocks, ¬ Text.Occurs ("let " ++ Identifier.camel "rest") block := by
  refine ⟨build_splitTree, blocks_splitProgram, ?_, ?_, by decide +kernel⟩
  · refine ⟨_, List.mem_cons_self .., _, rfl, none, ?_⟩
    simp [Expr.leaves, Expr.itemLeaves, Expr.optionLeaves]
  · rw [taken_iff]
    decide +kernel

end Scribe
