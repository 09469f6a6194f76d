import Scribe.Proofs.Emit.Literals
import Scribe.Proofs.Text.Literal

/-!
# Literals that are continued on another line

A literal in single quotes can go on behind a backslash at the end of a
line. It is written with that newline in it, and nothing holds the
newline back: like the newlines between statements it is cut at, and the
lines behind it are moved in with the block.

`quoted_literals_hang` says where such a literal is found again, and how
far its later lines were moved; what they were moved by becomes part of
the string. A literal of one line is kept, at any depth.
`continued_literal_moved` is a literal that is not.
-/

namespace Scribe

open Text

/-! ## What hanging leaves alone -/

/-- **Only lines behind the first move**, and only if there is something
on them. -/
theorem Text.hang_eq_self_of_tail {n : Nat} {t : String} (h : ∀ l ∈ (lines t).tail, l = "") :
    hang n t = t := by
  obtain ⟨l, ls, hlines⟩ := List.exists_cons_of_ne_nil (lines_ne_nil t)
  rw [hlines, List.tail_cons] at h
  have hmap : ls.map (indentLine n) = ls := by
    refine (List.map_congr_left fun k hk => ?_).trans (List.map_id _)
    rw [h k hk, indentLine]
    rfl
  rw [hang_eq_unlines n hlines, hmap, ← hlines, unlines_lines]

theorem mem_of_mem_hangChars {n : Nat} {cs : List Char} {c : Char} (h : c ∈ hangChars n cs) :
    c = ' ' ∨ c ∈ cs := by
  induction cs with
  | nil => cases h
  | cons x cs ih =>
    rw [hangChars, List.mem_cons, List.mem_append] at h
    rcases h with rfl | h | h
    · exact .inr (List.mem_cons_self ..)
    · split at h
      · exact .inl (List.eq_of_mem_replicate h)
      · cases h
    · exact (ih h).imp_right (List.mem_cons_of_mem _)

theorem releaseNewlines_eq_self {t : String} (h : Literal.heldNewline ∉ t.toList) :
    Literal.releaseNewlines t = t := by
  have hmap : t.toList.map (fun c => if c = Literal.heldNewline then '\n' else c) = t.toList := by
    refine (List.map_congr_left fun c hc => ?_).trans (List.map_id _)
    have hne : c ≠ Literal.heldNewline := fun heq => h (heq ▸ hc)
    exact if_neg hne
  rw [Literal.releaseNewlines, hmap, String.ofList_toList]

/-! ## Blocks -/

/-- **A literal `k` levels inside a top-level statement.** Each body
around it counts one level, each dictionary one, and a return one. -/
def Stmt.Nests (st : Stmt) (k : Nat) (text : String) : Prop :=
  ∃ (d n : Nat) (s : Scope) (inner : Stmt) (e : Expr) (loc : Option Location),
    st.Holds .top d s inner ∧ e ∈ inner.writes ∧ Expr.Within (.string text loc) n e ∧
      k = d + inner.shift + n

/-- **Ordinary literals hang.** The block of a top-level statement holds
each literal inside it with its later lines moved in by as many levels as
the literal is deep. It holds the literal as it is written if that moves
nothing: at the outermost level, and where nothing stands on the later
lines. -/
theorem quoted_literals_hang {p : Program} {blocks : List String} (h : p.blocks = .ok blocks)
    {st : Stmt} (hst : st ∈ p.body) {k : Nat} {text : String} (hnests : st.Nests k text)
    (htriple : Literal.opensTriple (Literal.unlettered text.toList) = false)
    (hheld : Literal.heldNewline ∉ text.toList) :
    ∃ f, st.emit .top = .ok f ∧ assemble f.lines ∈ blocks ∧
      Occurs (hang k (Literal.written text)) (assemble f.lines) ∧
      (k = 0 ∨ (∀ l ∈ (lines (Literal.written text)).tail, l = "") →
        Occurs (Literal.written text) (assemble f.lines)) := by
  obtain ⟨rest, hrest, rfl⟩ := blocks_eq_ok.1 h
  obtain ⟨d, n, s, inner, e, loc, hholds, he, hin, rfl⟩ := hnests
  obtain ⟨f, hf, hblock, hocc⟩ := occurs_hang_literal hrest hst hholds he hin
  -- nothing is held back in such a literal, so nothing is released
  have hclean : Literal.heldNewline ∉
      (hang (d + inner.shift + n) (Literal.written text)).toList := by
    intro hmem
    rw [toList_hang] at hmem
    rcases mem_of_mem_hangChars hmem with hblank | hmem
    · exact absurd hblank (by decide)
    · exact hheld (mem_of_mem_written htriple hmem)
  rw [releaseNewlines_eq_self hclean] at hocc
  refine ⟨f, hf, List.mem_append_right _ hblock, hocc, fun hkept => ?_⟩
  have hsame : hang (d + inner.shift + n) (Literal.written text) = Literal.written text := by
    rcases hkept with hzero | htail
    · rw [hzero, hang_zero]
    · exact hang_eq_self_of_tail htail
  rwa [hsame] at hocc

/-- A function that returns a literal of two lines. -/
def continuedTree : Cst :=
  let name (n : String) : Cst := .leaf .identifier n none
  .tree .moduleRoot [.tree .functionDefinition [name "f", .tree .parameters [] none,
    .tree .block [.tree .returnStatement [.leaf .string "\"a\\\nb\"" none] none] none] none] none

/-- The function of the tree. -/
def continuedFunction : Stmt :=
  .function "f" [] [.returning (some (.string "\"a\\\nb\"" none)) none] none [] none

/-- The block of the function. -/
def continuedBlock : String :=
  "function f() \x7b\n  return (\n    \"a\\\n    b\"\n  )\n\x7d"

theorem build_continuedTree :
    (continuedTree.build "m").result = .ok ⟨[continuedFunction], none⟩ := rfl

theorem blocks_continuedFunction :
    Program.blocks ⟨[continuedFunction], none⟩ = .ok [continuedBlock] :=
  Result.eq_ok_of_toOption (by decide +kernel)

theorem nests_continuedFunction : continuedFunction.Nests 2 "\"a\\\nb\"" :=
  ⟨1, 0, _, _, _, none, .function (List.mem_singleton_self _) .self, List.mem_singleton_self _,
    .refl, rfl⟩

/-- The second line of the literal above is moved in by two levels, one
for the body of the function and one for the parentheses. -/
theorem quoted_literals_hang_continued :
    Program.blocks ⟨[continuedFunction], none⟩ = .ok [continuedBlock] ∧
    continuedFunction.Nests 2 "\"a\\\nb\"" ∧
    Literal.opensTriple (Literal.unlettered "\"a\\\nb\"".toList) = false ∧
    Literal.heldNewline ∉ "\"a\\\nb\"".toList ∧
    ∃ f, continuedFunction.emit .top = .ok f ∧ assemble f.lines ∈ [continuedBlock] ∧
      Occurs (hang 2 (Literal.written "\"a\\\nb\"")) (assemble f.lines) := by
  refine ⟨blocks_continuedFunction, nests_continuedFunction, by decide +kernel,
    by decide +kernel, ?_⟩
  obtain ⟨f, hf, hblock, hocc, -⟩ := quoted_literals_hang blocks_continuedFunction
    (List.mem_singleton_self _) nests_continuedFunction (by decide +kernel) (by decide +kernel)
  exact ⟨f, hf, hblock, hocc⟩

/-- **A continued literal is changed by layout.** The literal above is
found in no block: the blanks in front of its second line are part of
the string that was written. -/
theorem continued_literal_moved :
    (continuedTree.build "m").result = .ok ⟨[continuedFunction], none⟩ ∧
    Program.blocks ⟨[continuedFunction], none⟩ = .ok [continuedBlock] ∧
    continuedFunction.Nests 2 "\"a\\\nb\"" ∧
    Literal.opensTriple (Literal.unlettered "\"a\\\nb\"".toList) = false ∧
    ∀ block ∈ [continuedBlock], ¬ Occurs (Literal.written "\"a\\\nb\"") block :=
  ⟨build_continuedTree, blocks_continuedFunction, nests_continuedFunction, by decide +kernel,
    by decide +kernel⟩

end Scribe
