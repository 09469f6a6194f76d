import Scribe.Proofs.Emit.Hoisting
import Scribe.Proofs.Emit.Placement
import Scribe.Proofs.Text.Control

/-!
# Literals in blocks

A literal that stands anywhere inside an expression is written in its
text, and every statement shows its expressions on its own lines: what
is left out holds no literal (`mem_shows`, `mem_statement_shows`). So a
literal at any depth is found again in the block of the top-level
statement around it, with a hanging indent that counts what stands in
between (`occurs_hang_literal`); a literal of one line is not changed by
that (`occurs_block`), and a template literal is one, since its newlines
are held back.

A newline of a literal is held back until its block is put together. The
declarations in front of a module are the one block that is not put
together so; what it consists of is read off the texts of the program
(`Program.Carries`), and none of them holds a held newline.
-/

namespace Scribe

open Text

variable {s : Scope} {f : Fragment}

/-- The test of a choice. -/
def Choice.test? : Choice → Option Expr
  | .mk test _ => test

/-- The expressions that a statement writes itself, outside its bodies.
An assignment without a value writes nothing. -/
def Stmt.writes : Stmt → List Expr
  | .expression value => [value]
  | .assignment left (some right) _ _ _ => [left, right]
  | .function _ parameters _ _ _ _ => parameters
  | .classDefinition _ _ arguments _ _ => arguments.getD []
  | .conditional choices _ => choices.filterMap Choice.test?
  | .forLoop left right _ _ => [left, right]
  | .whileLoop test _ _ => [test]
  | .returning value _ => value.toList
  | .raising value _ => [value]
  | _ => []

/-! ## Expressions -/

/-- **`x` stands inside `e`, within `n` dictionaries.** -/
inductive Expr.Within (x : Expr) : Nat → Expr → Prop
  | refl : Expr.Within x 0 x
  | child {c e : Expr} {n : Nat} : c ∈ e.children → Expr.Within x n c →
      Expr.Within x (e.shift + n) e

theorem Expr.Inside.exists_within {x e : Expr} (h : Expr.Inside x e) : ∃ n, Expr.Within x n e := by
  induction h with
  | refl => exact ⟨0, .refl⟩
  | child hc _ ih =>
    obtain ⟨n, hn⟩ := ih
    exact ⟨_, .child hc hn⟩

theorem inside_of_within {x e : Expr} {n : Nat} (h : Expr.Within x n e) : Expr.Inside x e := by
  induction h with
  | refl => exact .refl
  | child hc _ ih => exact .child hc ih

theorem lacksLiteral_collector {e : Expr} (h : e.isCollector = true) : e.LacksLiteral := by
  unfold Expr.isCollector at h
  split at h
  · exact lacksLiteral_reference _ _ _
  · exact lacksLiteral_typedParameter _ _ _ _
  · cases h

/-- **No part with a literal is left out** of a text. -/
theorem mem_shows {e c : Expr} {r : Option String} {n : Nat} {t : String}
    (h : e.Appears r n t) (hc : c ∈ e.children) : c ∈ e.shows ∨ c.LacksLiteral := by
  cases e with
  | call callee arguments loc =>
    rcases List.mem_cons.1 hc with rfl | hc
    · cases hsuper : c.isSuperConstructor with
      | true => exact .inr (lacksLiteral_superConstructor hsuper)
      | false => exact .inl (by simp [Expr.shows, hsuper])
    · exact .inl (List.mem_append_right _ hc)
  | member object property loc =>
    rcases List.mem_cons.1 hc with rfl | hc
    · cases hsuper : c.isSuperCall with
      | true => exact .inr (lacksLiteral_superCall hsuper)
      | false => exact .inl (by simp [Expr.shows, hsuper])
    · obtain rfl := List.mem_singleton.1 hc
      by_cases hkind : c.kind = .reference
      · obtain ⟨name, splat, loc', rfl⟩ := Expr.eq_reference hkind
        exact .inr (lacksLiteral_reference _ _ _)
      · exact .inl (by simp [Expr.shows, hkind])
  | slice start stop step loc =>
    rcases h with ⟨s, u, -, hu, -⟩ | ⟨⟨start', stop', loc', heq⟩, -⟩
    · simp only [Expr.emit, reduceCtorEq] at hu
    · -- a slice that shows has no step
      obtain ⟨rfl, rfl, rfl, rfl⟩ := Expr.slice.inj heq
      exact .inl (by simpa [Expr.children, Expr.shows] using hc)
  | lambda parameters body loc =>
    rcases List.mem_append.1 hc with hc | hc
    · cases hcollector : c.isCollector with
      | true => exact .inr (lacksLiteral_collector hcollector)
      | false => exact .inl (List.mem_append_left _ (List.mem_filter.2 ⟨hc, by simp [hcollector]⟩))
    · exact .inl (List.mem_append_right _ hc)
  | _ => exact .inl hc

/-- **All the way down.** What a literal is written as hangs in every
text around it, by one level for each dictionary in between. -/
theorem occurs_hang_of_within {e : Expr} {r : Option String} {n m : Nat} {t text : String}
    {loc : Option Location} (hin : Expr.Within (.string text loc) n e) (h : e.Appears r m t) :
    Occurs (hang (m + n) (Literal.written text)) t := by
  induction hin generalizing m with
  | refl =>
    rcases h with ⟨s, u, -, hu, hocc⟩ | ⟨⟨_, _, _, heq⟩, -⟩
    · obtain rfl := Except.ok.inj hu
      exact hocc
    · cases heq
  | child hc hin ih =>
    rcases mem_shows h hc with hshows | hlacks
    · rw [← Nat.add_assoc]
      exact ih (h.part hshows)
    · exact absurd (inside_of_within hin) (hlacks text loc)

/-! ## Statements -/

theorem lacksLiteral_single {e : Expr} (h : e.isSingle = true) : e.LacksLiteral := by
  unfold Expr.isSingle at h
  split at h
  · exact lacksLiteral_reference _ _ _
  · exact lacksLiteral_typedParameter _ _ _ _
  · cases h

theorem lacksLiteral_object {e : Expr} (h : e.isObject = true) : e.LacksLiteral := by
  unfold Expr.isObject at h
  split at h
  · exact lacksLiteral_reference _ _ _
  · cases h

/-- **No expression with a literal is left out** of the lines. -/
theorem mem_statement_shows {st : Stmt} {e : Expr} (h : st.emit s = .ok f) (he : e ∈ st.writes) :
    e ∈ st.shows s ∨ e.LacksLiteral := by
  cases st with
  | assignment left right operator type loc =>
    cases right with
    | none => cases he
    | some right =>
      simp only [Stmt.emit] at h
      simp only [Stmt.shows]
      split at h
      · rename_i hkind
        obtain ⟨name, splat, loc', t, v, rfl, -⟩ := emit_field h
        rw [if_pos hkind]
        rcases List.mem_cons.1 he with rfl | he
        · exact .inr (lacksLiteral_reference _ _ _)
        · exact .inl he
      · rename_i hkind
        rw [if_neg hkind]
        exact .inl he
  | function name parameters body returnType decorators loc =>
    -- a receiver and a collector are not shown, and hold no literal
    cases hsingle : e.isSingle with
    | true => exact .inr (lacksLiteral_single hsingle)
    | false =>
      cases hcollector : e.isCollector with
      | true => exact .inr (lacksLiteral_collector hcollector)
      | false => exact .inl (List.mem_filter.2 ⟨mem_passed he hsingle, by simp [hcollector]⟩)
  | classDefinition name body arguments decorators loc =>
    cases hobject : e.isObject with
    | true => exact .inr (lacksLiteral_object hobject)
    | false => exact .inl (List.mem_filter.2 ⟨he, by simp [hobject]⟩)
  | conditional choices loc =>
    obtain ⟨⟨test, body⟩, hc, htest⟩ := List.mem_filterMap.1 he
    obtain rfl : test = some e := htest
    exact .inl (Choice.mem_tests.2 ⟨body, hc⟩)
  | _ => exact .inl he

/-! ## Blocks -/

/-- **A literal at any depth hangs in the block around it**: by one level
for each body and each dictionary in between, and by one more if it is
returned. -/
theorem occurs_hang_literal {body : List Stmt} {blocks : List String} {st inner : Stmt} {d n : Nat}
    {e : Expr} {text : String} {loc : Option Location} (h : statementBlocks body = .ok blocks)
    (hst : st ∈ body) (hholds : st.Holds .top d s inner) (he : e ∈ inner.writes)
    (hin : Expr.Within (.string text loc) n e) :
    ∃ f, st.emit .top = .ok f ∧ assemble f.lines ∈ blocks ∧
      Occurs (Literal.releaseNewlines (hang (d + inner.shift + n) (Literal.written text)))
        (assemble f.lines) := by
  obtain ⟨f, hf, -⟩ := statementBlocks_mem h hst
  obtain ⟨g, hg, -⟩ := hholds.infix_lines hf
  have hshows : e ∈ inner.shows s :=
    (mem_statement_shows hg he).resolve_right fun hlacks => hlacks text loc (inside_of_within hin)
  obtain ⟨f, hf, hblock, hshown⟩ := shown_block h hst hholds hshows
  exact ⟨f, hf, hblock, (occurs_hang_of_within hin (.inl hshown)).releaseNewlines⟩

/-- **A literal of one line stands in the block as it is.** -/
theorem occurs_block {body : List Stmt} {blocks : List String} {st inner : Stmt} {d : Nat}
    {e : Expr} {text : String} {loc : Option Location} (h : statementBlocks body = .ok blocks)
    (hst : st ∈ body) (hholds : st.Holds .top d s inner) (he : e ∈ inner.writes)
    (hin : Expr.Inside (.string text loc) e) (hnl : '\n' ∉ (Literal.written text).toList) :
    ∃ f, st.emit .top = .ok f ∧ assemble f.lines ∈ blocks ∧
      Occurs (Literal.releaseNewlines (Literal.written text)) (assemble f.lines) := by
  obtain ⟨n, hn⟩ := hin.exists_within
  obtain ⟨f, hf, hblock, hocc⟩ := occurs_hang_literal h hst hholds he hn
  rw [hang_eq_self hnl] at hocc
  exact ⟨f, hf, hblock, hocc⟩

theorem written_of_opensTriple {text : String}
    (h : Literal.opensTriple (Literal.unlettered text.toList) = true) :
    Literal.written text = .ofList (Literal.template text.toList) := by
  rw [Literal.written, if_pos h]

/-- A template literal holds no newline before its block is put
together. -/
theorem not_mem_template (text : List Char) : '\n' ∉ Literal.template text := by
  have hheld : ∀ cs, '\n' ∉ Literal.holdNewlines cs := by
    intro cs hmem
    obtain ⟨c, -, hc⟩ := List.mem_map.1 hmem
    split at hc
    · cases hc
    · rename_i hne
      exact hne hc
  simp [Literal.template, hheld]

theorem not_mem_assemble (ls : List String) : Literal.heldNewline ∉ (assemble ls).toList := by
  intro hmem
  rw [assemble, Literal.releaseNewlines, String.toList_ofList] at hmem
  obtain ⟨c, -, hc⟩ := List.mem_map.1 hmem
  split at hc
  · cases hc
  · rename_i hne
    exact hne hc

/-- **Every block of a statement is put together**, those in front of it
as well. -/
theorem not_mem_statementBlocks {body : List Stmt} {blocks : List String}
    (h : statementBlocks body = .ok blocks) :
    ∀ b ∈ blocks, Literal.heldNewline ∉ b.toList := by
  induction body generalizing blocks with
  | nil =>
    obtain rfl := Except.ok.inj h
    exact nofun
  | cons st body ih =>
    simp only [statementBlocks, Result.bind_eq_ok, Result.pure_eq_ok] at h
    obtain ⟨f, -, rest, hrest, rfl⟩ := h
    intro b hb
    rw [List.mem_append, Fragment.blocks, List.mem_append] at hb
    rcases hb with (hb | hb) | hb
    · obtain ⟨block, -, rfl⟩ := List.mem_map.1 hb
      exact not_mem_assemble _
    · split at hb
      · cases hb
      · rw [List.mem_singleton.1 hb]
        exact not_mem_assemble _
    · exact ih hrest b hb

/-! ## The texts of a program -/

/-- The texts that an expression carries itself. -/
def Expr.texts : Expr → List String
  | .reference name _ _ => [name]
  | .defaultParameter name _ _ => [name]
  | .typedParameter name type _ _ => [name, type]
  | .typedDefaultParameter name type _ _ => [name, type]
  | .keywordArgument name _ _ => [name]
  | .string text _ => [text]
  | .number _ text _ => [text]
  | _ => []

/-- The texts that a statement carries itself. -/
def Stmt.texts : Stmt → List String
  | .assignment _ _ operator type _ => operator :: type.toList
  | .function name _ _ returnType decorators _ => name :: returnType.toList ++ decorators
  | .classDefinition name _ _ decorators _ => name :: decorators
  | .comment text _ => [text]
  | _ => []

/-- The expressions of a statement outside its bodies, written or not. -/
def Stmt.expressions : Stmt → List Expr
  | .assignment left right _ _ _ => left :: right.toList
  | st => st.writes

/-- The text stands in the statement, outside its bodies. -/
def Stmt.Carries (st : Stmt) (t : String) : Prop :=
  t ∈ st.texts ∨ ∃ e ∈ st.expressions, ∃ x, Expr.Inside x e ∧ t ∈ x.texts

/-- The text stands somewhere in the program. -/
def Program.Carries (p : Program) (t : String) : Prop :=
  ∃ st ∈ p.body, ∃ d s inner, st.Holds .top d s inner ∧ inner.Carries t

/-! ## The declarations in front -/

theorem inside_of_mem_leaves {x e : Expr} (h : x ∈ e.leaves) : Expr.Inside x e := by
  induction e using Expr.induction with
  | sequence kind items loc ih =>
    have hitem : ∃ e, some e ∈ items ∧ x ∈ e.leaves := by
      rw [Expr.leaves] at h
      clear ih
      induction items with
      | nil => cases h
      | cons i is ihs =>
        rw [Expr.itemLeaves, List.mem_append] at h
        rcases h with h | h
        · cases i with
          | none => cases h
          | some e => exact ⟨e, List.mem_cons_self .., h⟩
        · obtain ⟨e, he, hx⟩ := ihs h
          exact ⟨e, List.mem_cons_of_mem _ he, hx⟩
    obtain ⟨e, he, hx⟩ := hitem
    exact .child (List.mem_filterMap.2 ⟨some e, he, rfl⟩) (ih e he hx)
  | _ =>
    obtain rfl := List.mem_singleton.1 h
    exact .refl

theorem exists_of_mem_bodyInScope {body : List Stmt} {x : Stmt} (h : x ∈ Stmt.bodyInScope body) :
    ∃ st ∈ body, x ∈ st.inScope := by
  induction body with
  | nil => cases h
  | cons st body ih =>
    rw [Stmt.bodyInScope, List.mem_append] at h
    rcases h with h | h
    · exact ⟨st, List.mem_cons_self .., h⟩
    · obtain ⟨st', hst', hx⟩ := ih h
      exact ⟨st', List.mem_cons_of_mem _ hst', hx⟩

theorem exists_of_mem_choicesInScope {choices : List Choice} {x : Stmt}
    (h : x ∈ Stmt.choicesInScope choices) :
    ∃ test body, .mk test body ∈ choices ∧ x ∈ Stmt.bodyInScope body := by
  induction choices with
  | nil => cases h
  | cons c choices ih =>
    obtain ⟨test, body⟩ := c
    rw [Stmt.choicesInScope, List.mem_append] at h
    rcases h with h | h
    · exact ⟨test, body, List.mem_cons_self .., h⟩
    · obtain ⟨test', body', hc, hx⟩ := ih h
      exact ⟨test', body', List.mem_cons_of_mem _ hc, hx⟩

/-- What shares the scope of a statement is held by it. -/
theorem holds_of_mem_inScope {st x : Stmt} (h : x ∈ st.inScope) : ∃ d, st.Holds s d s x := by
  induction st using Stmt.induction with
  | conditional choices loc ih =>
    rcases List.mem_cons.1 h with rfl | h
    · exact ⟨0, .self⟩
    · obtain ⟨test, body, hc, hbody⟩ := exists_of_mem_choicesInScope h
      obtain ⟨st, hst, hx⟩ := exists_of_mem_bodyInScope hbody
      obtain ⟨d, hd⟩ := ih test body hc st hst hx
      exact ⟨d + 1, .conditional hc hst hd⟩
  | forLoop left right body loc ih =>
    rcases List.mem_cons.1 h with rfl | h
    · exact ⟨0, .self⟩
    · obtain ⟨st, hst, hx⟩ := exists_of_mem_bodyInScope h
      obtain ⟨d, hd⟩ := ih st hst hx
      exact ⟨d + 1, .forLoop hst hd⟩
  | whileLoop test body loc ih =>
    rcases List.mem_cons.1 h with rfl | h
    · exact ⟨0, .self⟩
    · obtain ⟨st, hst, hx⟩ := exists_of_mem_bodyInScope h
      obtain ⟨d, hd⟩ := ih st hst hx
      exact ⟨d + 1, .whileLoop hst hd⟩
  | _ =>
    obtain rfl := List.mem_singleton.1 h
    exact ⟨0, .self⟩

/-- **Where a record comes from**: a statement of the body, at any depth in
the same scope, that assigns to something with its name; a type is that of
the annotation. -/
theorem exists_of_mem_recorded {receiver : Option String} {body : List Stmt} {b : Binding}
    (h : b ∈ recorded receiver body) :
    ∃ st ∈ body, ∃ d inner, st.Holds s d s inner ∧
      (∃ left name splat loc, inner.left? = some left ∧
        Expr.Inside (.reference name splat loc) left ∧ b.1 = Identifier.camel name) ∧
      ∀ t ∈ b.2, ∃ spelling, inner.annotation? = some spelling ∧ typeName spelling = .ok t := by
  obtain ⟨inner, hinner, hrecords⟩ := List.mem_flatMap.1 h
  obtain ⟨st, hst, hscope⟩ := exists_of_mem_bodyInScope hinner
  obtain ⟨d, hholds⟩ := holds_of_mem_inScope (s := s) hscope
  obtain ⟨left, name, splat, loc, hleft, hleaf, hname, htype⟩ := mem_records hrecords
  refine ⟨st, hst, d, inner, hholds,
    ⟨left, name, splat, loc, hleft, inside_of_mem_leaves hleaf, hname⟩, fun t ht => ?_⟩
  exact (denotedType_eq_some (htype t ht)).2

theorem mem_expressions_of_left {st : Stmt} {left : Expr} (h : st.left? = some left) :
    left ∈ st.expressions := by
  obtain ⟨_, _, _, _, rfl⟩ | ⟨_, _, _, rfl⟩ := Stmt.left?_eq_some h
  · exact List.mem_cons_self ..
  · exact List.mem_cons_self ..

theorem mem_texts_of_annotated {st : Stmt} {spelling : String}
    (h : st.annotation? = some spelling) : spelling ∈ st.texts := by
  obtain ⟨_, _, _, _, rfl⟩ := Stmt.annotation?_eq_some h
  exact List.mem_cons_of_mem _ (List.mem_singleton_self _)

/-- A control character that no text of the program holds is not in what
its top level records either. -/
theorem not_mem_recorded {p : Program} {x : Char} (hx : IsControl x)
    (h : ∀ t, p.Carries t → x ∉ t.toList) {b : Binding} (hb : b ∈ recorded none p.body) :
    x ∉ b.1.toList ∧ ∀ t ∈ b.2, x ∉ t.toList := by
  obtain ⟨st, hst, d, inner, hholds, ⟨left, name, splat, loc, hleft, hinside, hname⟩, htype⟩ :=
    exists_of_mem_recorded (s := .top) hb
  have hcarried : ∀ t, inner.Carries t → x ∉ t.toList :=
    fun t ht => h t ⟨st, hst, d, .top, inner, hholds, ht⟩
  constructor
  · have hcarries : inner.Carries name :=
      .inr ⟨left, mem_expressions_of_left hleft, _, hinside, List.mem_singleton_self _⟩
    intro hmem
    rw [hname] at hmem
    exact hcarried name hcarries (Identifier.mem_of_mem_camel hx.isForeign hmem)
  · intro t ht hmem
    obtain ⟨spelling, hspelling, hmapped⟩ := htype t ht
    exact hcarried spelling (.inl (mem_texts_of_annotated hspelling))
      (mem_of_mem_typeName hx hmapped hmem)

theorem not_mem_letLine {x : Char} (hx : IsControl x) {name : String} {type : Option String}
    (hname : x ∉ name.toList) (htype : ∀ t ∈ type, x ∉ t.toList) :
    x ∉ (letLine name type).toList := by
  have hlet : x ∉ "let ".toList := not_mem_of_all hx (by decide)
  have hcolon : x ∉ ": ".toList := not_mem_of_all hx (by decide)
  cases type with
  | none =>
    rw [letLine, String.toList_append, List.mem_append]
    exact not_or.2 ⟨hlet, hname⟩
  | some t =>
    simp only [letLine, String.toList_append, List.mem_append, not_or]
    exact ⟨⟨⟨hlet, hname⟩, hcolon⟩, htype t rfl⟩

/-- **The declarations in front hold no held newline**, if no text of
the program does. -/
theorem not_mem_declarationBlock {p : Program} (hfits : ∀ st ∈ p.body, st.fits = true)
    (h : ∀ t, p.Carries t → Literal.heldNewline ∉ t.toList) :
    ∀ b ∈ declarationBlock p.body, Literal.heldNewline ∉ b.toList := by
  have hx : IsControl Literal.heldNewline := by decide
  obtain ⟨names, hnames, -, hlines⟩ := hoists_declarations_module hfits
  intro b hb
  rw [declarationBlock.eq_def] at hb
  split at hb
  · cases hb
  · rw [List.mem_singleton.1 hb]
    intro hmem
    -- this block is joined but not put together, so its lines must be clean
    rcases mem_of_mem_intercalate hmem with hsep | ⟨l, hl, hmem⟩
    · exact absurd hsep (by decide)
    rw [hlines] at hl
    obtain ⟨n, hn, rfl⟩ := List.mem_map.1 hl
    obtain ⟨c, hc, rfl⟩ := List.mem_map.1 ((hnames n).1 hn).1
    refine not_mem_letLine hx (not_mem_recorded hx h hc).1 (fun t ht => ?_) hmem
    obtain ⟨c', hc', hct⟩ := exists_of_lastType ht
    exact (not_mem_recorded hx h hc').2 t hct

/-! ## Survival -/

/-- **The literals of the program survive in the blocks.** A literal in
triple quotes that some statement writes, at any depth, stands in the
block of the top-level statement around it, in one piece and with its
newlines in place; and nothing is held back in any block. -/
structure Program.LiteralsIn (p : Program) (blocks : List String) : Prop where
  literal : ∀ st ∈ p.body, ∀ (d : Nat) (s : Scope) (inner : Stmt) (e : Expr) (text : String)
    (loc : Option Location), st.Holds .top d s inner → e ∈ inner.writes →
    Expr.Inside (.string text loc) e →
    Literal.opensTriple (Literal.unlettered text.toList) = true →
    ∃ f, st.emit .top = .ok f ∧ assemble f.lines ∈ blocks ∧
      Occurs (Literal.releaseNewlines (.ofList (Literal.template text.toList))) (assemble f.lines)
  released : ∀ b ∈ blocks, Literal.heldNewline ∉ b.toList

/-- **Literals survive layout.** The targets of assignments without a
value are not written, so literals in them are left out. -/
theorem literals_survive {file : String} {tree : Cst} {p : Program} {blocks : List String}
    (hp : (tree.build file).result = .ok p) (hblocks : p.blocks = .ok blocks)
    (hheld : ∀ t, p.Carries t → Literal.heldNewline ∉ t.toList) : p.LiteralsIn blocks := by
  obtain ⟨rest, hrest, rfl⟩ := blocks_eq_ok.1 hblocks
  refine ⟨fun st hst d s inner e text loc hholds he hin htriple => ?_, fun b hb => ?_⟩
  · have hwritten := written_of_opensTriple htriple
    have hnl : '\n' ∉ (Literal.written text).toList := by
      rw [hwritten, String.toList_ofList]
      exact not_mem_template text.toList
    obtain ⟨f, hf, hmem, hocc⟩ := occurs_block hrest hst hholds he hin hnl
    rw [hwritten] at hocc
    exact ⟨f, hf, List.mem_append_right _ hmem, hocc⟩
  · rcases List.mem_append.1 hb with hb | hb
    · exact not_mem_declarationBlock (Cst.fits_of_build hp) hheld b hb
    · exact not_mem_statementBlocks hrest b hb

/-- A method that returns a dictionary with a literal of two lines. -/
def pageTree : Cst :=
  let name (n : String) : Cst := .leaf .identifier n none
  let token (t : String) : Cst := .leaf (.token t) t none
  let value : Cst := .tree .dictionary [token "\x7b",
    .tree .pair [name "k", token ":", .leaf .string "\"\"\"a\n    b\"\"\"" none] none,
    token "\x7d"] none
  .tree .moduleRoot [
    .tree .classDefinition [name "page", .tree .block [
      .tree .functionDefinition [name "body", .tree .parameters [name "self"] none,
        .tree .block [.tree .returnStatement [value] none] none] none] none] none] none

/-- The dictionary of the tree. -/
def pageValue : Expr :=
  .dictionary [.pair (.reference "k" none none)
    (.string "\"\"\"a\n    b\"\"\"" none) none] none

/-- The program of the tree. -/
def pageProgram : Program :=
  ⟨[.classDefinition "page" [.function "body" [.reference "self" none none]
    [.returning (some pageValue) none] none [] none] none [] none], none⟩

/-- The blocks of the program. -/
def pageBlocks : List String :=
  ["class Page \x7b\n  body() \x7b\n    return (\n      \x7b\n        [k]: \x60a\n    b\x60,\n"
    ++ "      \x7d\n    )\n  \x7d\n\x7d"]

theorem not_mem_of_carries_page : ∀ t, pageProgram.Carries t →
    Literal.heldNewline ∉ t.toList := by
  have hself : ∀ x, Expr.Inside x (.reference "self" none none) →
      ∀ t ∈ x.texts, Literal.heldNewline ∉ t.toList :=
    forall_inside (by decide) nofun
  have hvalue : ∀ x, Expr.Inside x pageValue → ∀ t ∈ x.texts, Literal.heldNewline ∉ t.toList := by
    refine forall_inside (by decide) fun c hc => ?_
    obtain rfl := List.mem_singleton.1 hc
    refine forall_inside (by decide) fun c hc => ?_
    rcases List.mem_cons.1 hc with rfl | hc
    · exact forall_inside (by decide) nofun
    · obtain rfl := List.mem_singleton.1 hc
      exact forall_inside (by decide) nofun
  -- from the module into its class, and from there into the method
  rintro t ⟨st, hst, d, s, inner, hholds, hcarries⟩
  obtain rfl := List.mem_singleton.1 hst
  cases hholds with
  | self =>
    rcases hcarries with ht | ⟨e, he, -⟩
    · revert t
      decide
    · cases he
  | classDefinition hmem hholds =>
    obtain rfl := List.mem_singleton.1 hmem
    cases hholds with
    | self =>
      rcases hcarries with ht | ⟨e, he, x, hx, ht⟩
      · revert t
        decide
      · obtain rfl := List.mem_singleton.1 he
        exact hself x hx t ht
    | function hmem hholds =>
      obtain rfl := List.mem_singleton.1 hmem
      cases hholds
      rcases hcarries with ht | ⟨e, he, x, hx, ht⟩
      · cases ht
      · obtain rfl := List.mem_singleton.1 he
        exact hvalue x hx t ht

/-- Three bodies, a dictionary and the parentheses of a return stand
around the literal above; its second line is not indented with them. -/
theorem literals_survive_page : (pageTree.build "m").result = .ok pageProgram ∧
    pageProgram.blocks = .ok pageBlocks ∧
    (∀ t, pageProgram.Carries t → Literal.heldNewline ∉ t.toList) ∧
    pageProgram.LiteralsIn pageBlocks := by
  have hp : (pageTree.build "m").result = .ok pageProgram := rfl
  have hblocks : pageProgram.blocks = .ok pageBlocks :=
    Result.eq_ok_of_toOption (by decide +kernel)
  exact ⟨hp, hblocks, not_mem_of_carries_page,
    literals_survive hp hblocks not_mem_of_carries_page⟩

/-- An assignment that is a target and nothing else. -/
def bareTree : Cst :=
  let token (t : String) : Cst := .leaf (.token t) t none
  .tree .moduleRoot [.tree .expressionStatement [.tree .assignment [
    .tree .subscript [.leaf .identifier "a" none, token "[",
      .leaf .string "\"\"\"x\"\"\"" none, token "]"] none] none] none] none

/-- The target of the tree. -/
def bareTarget : Expr :=
  .subscript (.reference "a" none none) (.string "\"\"\"x\"\"\"" none) none

theorem not_mem_of_carries_bare : ∀ t,
    (Program.mk [.assignment bareTarget none "=" none none] none).Carries t →
    Literal.heldNewline ∉ t.toList := by
  have htarget : ∀ x, Expr.Inside x bareTarget →
      ∀ t ∈ x.texts, Literal.heldNewline ∉ t.toList := by
    refine forall_inside (by decide) fun c hc => ?_
    rcases List.mem_cons.1 hc with rfl | hc
    · exact forall_inside (by decide) nofun
    · obtain rfl := List.mem_singleton.1 hc
      exact forall_inside (by decide) nofun
  rintro t ⟨st, hst, d, s, inner, hholds, hcarries⟩
  obtain rfl := List.mem_singleton.1 hst
  cases hholds
  rcases hcarries with ht | ⟨e, he, x, hx, ht⟩
  · revert t
    decide
  · obtain rfl := List.mem_singleton.1 he
    exact htarget x hx t ht

/-- **A bare target is not written**, although it is not annotated: the
literal in it is lost. -/
theorem bare_target_lost : ∃ p, (bareTree.build "m").result = .ok p ∧
    p.body = [.assignment bareTarget none "=" none none] ∧
    (∀ t, p.Carries t → Literal.heldNewline ∉ t.toList) ∧
    Expr.Inside (.string "\"\"\"x\"\"\"" none) bareTarget ∧
    Literal.opensTriple (Literal.unlettered "\"\"\"x\"\"\"".toList) = true ∧
    ∃ blocks, p.blocks = .ok blocks ∧ ∀ b ∈ blocks, ¬ Occurs
      (Literal.releaseNewlines (.ofList (Literal.template "\"\"\"x\"\"\"".toList))) b := by
  refine ⟨⟨[.assignment bareTarget none "=" none none], none⟩, rfl, rfl,
    not_mem_of_carries_bare, ?_, by decide, [], rfl, nofun⟩
  exact .child (List.mem_cons_of_mem _ (List.mem_singleton_self _)) .refl

end Scribe
