import Scribe.Proofs.Emit.BlockLines

/-!
# Decorators

The decorators of a function or class are kept as line comments in front of
its opening line, one behind the other. A decorator is written behind one
`//`, however many lines it has, and a line comment ends with its line.

`decorators_commented_iff` follows the decorators of a definition from any
depth of a module to the lines of its block, and says when all of these lines
are comments: what stands on the later lines of a decorator has to start with
`//` itself. `spread_decorator_uncommented` is a decorator with arguments on
lines of their own, which come out as code.
-/

namespace Scribe

open Text

/-- The decorators of a definition. -/
def Stmt.decorators : Stmt → List String
  | .function _ _ _ _ decorators _ => decorators
  | .classDefinition _ _ _ decorators _ => decorators
  | _ => []

/-! ## Lines that are comments -/

/-- What stands on a line behind its indentation. -/
def unindented (l : String) : List Char :=
  trimStart isBlank l.toList

/-- **The line is a comment** if anything stands on it at all. -/
def IsCommented (l : String) : Prop :=
  unindented l ≠ [] → "//".toList <+: unindented l

instance (l : String) : Decidable (IsCommented l) :=
  inferInstanceAs (Decidable (_ → _))

/-- Moving a line in changes nothing behind its indentation. -/
theorem unindented_indentLine (d : Nat) (l : String) :
    unindented (indentLine d l) = unindented l := by
  have hblank : ∀ c ∈ blanks d, isBlank c = true := by
    intro c hc
    rw [List.eq_of_mem_replicate hc]
    decide
  rw [unindented, toList_indentLine, indentChars]
  split
  · rename_i hnil
    rw [unindented, hnil]
  · rw [trimStart, List.dropWhile_append_of_pos hblank, unindented, trimStart]

theorem isCommented_indentLine {d : Nat} {l : String} :
    IsCommented (indentLine d l) ↔ IsCommented l := by
  rw [IsCommented, IsCommented, unindented_indentLine]

/-- Nothing stands in front of the slashes. -/
theorem isCommented_slashes (l : String) : IsCommented ("// " ++ l) := by
  intro _
  have hslash : isBlank '/' = false := by decide
  have hline : unindented ("// " ++ l) = '/' :: '/' :: ' ' :: l.toList := by
    simp [unindented, trimStart, hslash]
  rw [hline]
  exact ⟨' ' :: l.toList, rfl⟩

/-- What is put in front of a text stands on its first line. -/
theorem lines_append {a t l : String} {ls : List String} (ha : '\n' ∉ a.toList)
    (h : lines t = l :: ls) : lines (a ++ t) = (a ++ l) :: ls := by
  have hmem : ∀ k ∈ l :: ls, '\n' ∉ k.toList := fun k hk => not_mem_of_mem_lines (h ▸ hk)
  have hcut : ∀ k ∈ (a ++ l) :: ls, lines k = [k] := by
    intro k hk
    refine lines_eq_singleton ?_
    rcases List.mem_cons.1 hk with rfl | hk
    · simpa [ha] using hmem l (List.mem_cons_self ..)
    · exact hmem k (List.mem_cons_of_mem _ hk)
  have ht : a ++ t = unlines ((a ++ l) :: ls) := by
    rw [unlines_cons_append, ← h, unlines_lines]
  rw [ht, lines_unlines (List.cons_ne_nil _ _), List.flatMap_congr hcut, ← List.map_eq_flatMap,
    List.map_id']

/-! ## The lines of decorators -/

/-- **The later lines of a decorator are as they were.** -/
theorem forall_commented_iff (d : Nat) (decorator : String) :
    (∀ l ∈ indent d ["// " ++ decorator], IsCommented l) ↔
      ∀ l ∈ (lines decorator).tail, IsCommented l := by
  obtain ⟨l, ls, hlines⟩ := List.exists_cons_of_ne_nil (lines_ne_nil decorator)
  have hindent : indent d ["// " ++ decorator] =
      indentLine d ("// " ++ l) :: ls.map (indentLine d) := by
    rw [indent, List.flatMap_singleton, lines_append (by decide) hlines, List.map_cons]
  rw [hindent, hlines, List.tail_cons, List.forall_mem_cons, List.forall_mem_map]
  simp only [isCommented_indentLine, isCommented_slashes, true_and]

theorem forall_decorators_commented_iff (d : Nat) (decorators : List String) :
    (∀ l ∈ indent d (decoratorLines decorators), IsCommented l) ↔
      ∀ decorator ∈ decorators, ∀ l ∈ (lines decorator).tail, IsCommented l := by
  have hmem : ∀ l, l ∈ indent d (decoratorLines decorators) ↔
      ∃ decorator ∈ decorators, l ∈ indent d ["// " ++ decorator] := by
    intro l
    simp [indent, decoratorLines]
  simp only [hmem, ← forall_commented_iff d]
  constructor
  · intro h decorator hdecorator l hl
    exact h l ⟨decorator, hdecorator, hl⟩
  · rintro h l ⟨decorator, hdecorator, hl⟩
    exact h decorator hdecorator l hl

/-- The decorators stand in front of everything else a definition is written
as. -/
theorem prefix_decoratorLines {st : Stmt} {s : Scope} {f : Fragment} (h : st.emit s = .ok f) :
    decoratorLines st.decorators <+: f.lines := by
  cases st with
  | function name parameters body returnType decorators loc =>
    obtain ⟨_, _, _, _, _, -, -, -, -, rfl⟩ := emit_function h
    exact List.prefix_append _ _
  | classDefinition name body arguments decorators loc =>
    obtain ⟨_, _, -, -, rfl⟩ := emit_class h
    exact List.prefix_append _ _
  | _ => exact List.nil_prefix

/-! ## Blocks -/

/-- **When decorators stay comments.** The decorators of a definition at any
depth of a module stand together in the block of the top-level statement
around it, each behind its `//` and moved in by the depth. All their lines
are comments exactly if on every line of a decorator behind its first one
something starts with `//`, or nothing stands there. -/
theorem decorators_commented_iff {p : Program} {blocks : List String} (h : p.blocks = .ok blocks)
    {st inner : Stmt} (hst : st ∈ p.body) {d : Nat} {s : Scope}
    (hin : st.Holds .top d s inner) (hne : inner.decorators ≠ [])
    (hheld : ∀ decorator ∈ inner.decorators, Literal.heldNewline ∉ decorator.toList) :
    ∃ f, st.emit .top = .ok f ∧ assemble f.lines ∈ blocks ∧
      indent d (decoratorLines inner.decorators) <:+: lines (assemble f.lines) ∧
      ((∀ l ∈ indent d (decoratorLines inner.decorators), IsCommented l) ↔
        ∀ decorator ∈ inner.decorators, ∀ l ∈ (lines decorator).tail, IsCommented l) := by
  obtain ⟨f, g, hf, hg, hblock⟩ := infix_block_lines h hst hin
  have hclean : ∀ l ∈ decoratorLines inner.decorators, Literal.heldNewline ∉ l.toList := by
    intro l hl
    obtain ⟨decorator, hdecorator, rfl⟩ := List.mem_map.1 hl
    have hmarks : Literal.heldNewline ∉ "// ".toList := by decide
    rw [String.toList_append, List.mem_append, not_or]
    exact ⟨hmarks, hheld decorator hdecorator⟩
  obtain ⟨hmem, hinfix⟩ := hblock _ (prefix_decoratorLines hg).isInfix
    (by simpa [decoratorLines] using hne) hclean
  exact ⟨f, hf, hmem, hinfix, forall_decorators_commented_iff d inner.decorators⟩

/-- A method with two decorators. The argument of the second is a quotient,
and its sign happens to open the second line. -/
def quotientMethod : Stmt :=
  .function "m" [] [.simple .pass none] none ["@a", "@b(c\n // 2)"] none

theorem decorators_commented_iff_quotient :
    Program.blocks ⟨[.classDefinition "A" [quotientMethod] none [] none], none⟩ =
      .ok ["class A \x7b\n  // @a\n  // @b(c\n   // 2)\n  m() \x7b\n  \x7d\n\x7d"] ∧
    quotientMethod.decorators ≠ [] ∧
    (∀ decorator ∈ quotientMethod.decorators, Literal.heldNewline ∉ decorator.toList) ∧
    ∀ l ∈ indent 1 (decoratorLines quotientMethod.decorators), IsCommented l := by
  have hblocks : Program.blocks ⟨[.classDefinition "A" [quotientMethod] none [] none], none⟩ =
      .ok ["class A \x7b\n  // @a\n  // @b(c\n   // 2)\n  m() \x7b\n  \x7d\n\x7d"] :=
    Result.eq_ok_of_toOption (by decide +kernel)
  have hheld : ∀ decorator ∈ quotientMethod.decorators,
      Literal.heldNewline ∉ decorator.toList := by decide +kernel
  have hin : Stmt.Holds .top (.classDefinition "A" [quotientMethod] none [] none) 1 _
      quotientMethod := .classDefinition (List.mem_singleton_self _) .self
  have hne : quotientMethod.decorators ≠ [] := List.cons_ne_nil _ _
  obtain ⟨_, -, -, -, hiff⟩ :=
    decorators_commented_iff hblocks (List.mem_singleton_self _) hin hne hheld
  exact ⟨hblocks, hne, hheld, hiff.2 (by decide +kernel)⟩

/-- A function under a decorator whose argument has a line of its own. -/
def spreadTree : Cst :=
  .tree .moduleRoot [.tree .decoratedDefinition [.leaf .decorator "@cache(\n  None,\n)\n" none,
    .tree .functionDefinition [.leaf .identifier "f" none, .tree .parameters [] none,
      .tree .block [.leaf .passStatement "pass" none] none] none] none] none

/-- The function of the tree. -/
def spreadFunction : Stmt :=
  .function "f" [] [.simple .pass none] none ["@cache(\n  None,\n)"] none

/-- **The second line of a decorator is code.** Only the first line of the
decorator above is behind the slashes. -/
theorem spread_decorator_uncommented :
    (spreadTree.build "m").result = .ok ⟨[spreadFunction], none⟩ ∧
    Program.blocks ⟨[spreadFunction], none⟩ =
      .ok ["// @cache(\n  None,\n)\nfunction f() \x7b\n\x7d"] ∧
    lines "// @cache(\n  None,\n)\nfunction f() \x7b\n\x7d" =
      indent 0 (decoratorLines spreadFunction.decorators) ++ ["function f() \x7b", "\x7d"] ∧
    "  None," ∈ indent 0 (decoratorLines spreadFunction.decorators) ∧ ¬ IsCommented "  None," := by
  refine ⟨rfl, Result.eq_ok_of_toOption ?_, ?_, ?_, ?_⟩
  all_goals decide +kernel

end Scribe
