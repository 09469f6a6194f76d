import Mathlib.Data.List.Infix
import Scribe.Proofs.Emit.Continuation

/-!
# The lines of a block

A block is put together from the lines of a statement, and its newlines cut
it into lines again. These are the lines of the statement, each cut where it
has a newline or held one back (`lines_assemble`). So lines of a statement at
any depth that hold nothing back are lines of the block around it, side by
side, and moved in by the depth (`infix_block_lines`).
-/

namespace Scribe

open Text

/-! ## Cutting a block -/

/-- Newlines are released line by line. -/
theorem releaseNewlines_unlines (ls : List String) :
    Literal.releaseNewlines (unlines ls) = unlines (ls.map Literal.releaseNewlines) := by
  have happend : ∀ a b : String, Literal.releaseNewlines (a ++ b) =
      Literal.releaseNewlines a ++ Literal.releaseNewlines b := by
    intro a b
    simp [Literal.releaseNewlines]
  have hnewline : Literal.releaseNewlines "\n" = "\n" := by decide
  induction ls with
  | nil => rfl
  | cons l ls ih =>
    cases ls with
    | nil => simp [unlines_singleton]
    | cons m ls =>
      have hcons : ∀ (a b : String) (rest : List String),
          unlines (a :: b :: rest) = a ++ "\n" ++ unlines (b :: rest) := fun _ _ _ =>
        String.intercalate_cons_cons
      rw [hcons, happend, happend, hnewline, ih, List.map_cons, List.map_cons, List.map_cons, hcons]

/-- **The lines of a block** are those it was put together from, cut at the
newlines that they held back. -/
theorem lines_assemble {ms : List String} (h : ms ≠ []) :
    lines (assemble ms) = (indent 0 ms).flatMap fun l => lines (Literal.releaseNewlines l) := by
  have hne : (indent 0 ms).map Literal.releaseNewlines ≠ [] := by
    simpa using h
  rw [assemble, ← unlines_flatMap_lines, ← indent_zero, releaseNewlines_unlines, lines_unlines hne,
    List.flatMap_map]

/-- Indented lines are cut already. -/
theorem not_mem_of_mem_indent {d : Nat} {ls : List String} {l : String} (h : l ∈ indent d ls) :
    '\n' ∉ l.toList := by
  obtain ⟨k, -, hl⟩ := List.mem_flatMap.1 h
  obtain ⟨p, hp, rfl⟩ := List.mem_map.1 hl
  exact not_mem_indentLine d (not_mem_of_mem_lines hp)

/-- A character of an indented line comes from the line, or is a blank in
front of it. -/
theorem mem_of_mem_indent {d : Nat} {ls : List String} {l : String} {c : Char}
    (h : l ∈ indent d ls) (hc : c ∈ l.toList) : c = ' ' ∨ ∃ k ∈ ls, c ∈ k.toList := by
  obtain ⟨k, hk, hl⟩ := List.mem_flatMap.1 h
  obtain ⟨p, hp, rfl⟩ := List.mem_map.1 hl
  rw [toList_indentLine, indentChars] at hc
  split at hc
  · cases hc
  · rcases List.mem_append.1 hc with hc | hc
    · exact .inl (List.eq_of_mem_replicate hc)
    · obtain ⟨q, hq, rfl⟩ := List.mem_map.1 hp
      rw [String.toList_ofList] at hc
      exact .inr ⟨k, hk, TypeName.mem_of_mem_splitOn hq hc⟩

/-- **Indented lines that hold nothing back** are lines of the block. -/
theorem infix_lines_assemble {d : Nat} {ls ms : List String} (h : indent d ls <:+: indent 0 ms)
    (hls : ls ≠ []) (hheld : ∀ l ∈ ls, Literal.heldNewline ∉ l.toList) :
    indent d ls <:+: lines (assemble ms) := by
  have hms : ms ≠ [] := by
    rintro rfl
    exact hls (by simpa using h)
  -- such a line is a line of the block as it stands
  have hkept : (indent d ls).flatMap (fun l => lines (Literal.releaseNewlines l)) =
      indent d ls := by
    have hline : ∀ l ∈ indent d ls, lines (Literal.releaseNewlines l) = [l] := by
      intro l hl
      have hclean : Literal.heldNewline ∉ l.toList := by
        intro hmem
        rcases mem_of_mem_indent hl hmem with hblank | ⟨k, hk, hmem⟩
        · exact absurd hblank (by decide)
        · exact hheld k hk hmem
      rw [releaseNewlines_eq_self hclean, lines_eq_singleton (not_mem_of_mem_indent hl)]
    rw [List.flatMap_congr hline, ← List.map_eq_flatMap, List.map_id']
  rw [lines_assemble hms, ← hkept]
  exact h.flatMap _

/-! ## Statements at any depth -/

/-- **From a statement at any depth to the lines of its block.** What an
inner statement was written as stands in the block of the top-level statement
around it, if it holds nothing back. -/
theorem infix_block_lines {p : Program} {blocks : List String} (h : p.blocks = .ok blocks)
    {st inner : Stmt} (hst : st ∈ p.body) {d : Nat} {s : Scope} (hin : st.Holds .top d s inner) :
    ∃ f g, st.emit .top = .ok f ∧ inner.emit s = .ok g ∧
      ∀ ls, ls <:+: g.lines → ls ≠ [] → (∀ l ∈ ls, Literal.heldNewline ∉ l.toList) →
        assemble f.lines ∈ blocks ∧ indent d ls <:+: lines (assemble f.lines) := by
  obtain ⟨rest, hrest, rfl⟩ := blocks_eq_ok.1 h
  obtain ⟨f, hf, hblocks⟩ := statementBlocks_mem hrest hst
  obtain ⟨g, hg, hlines⟩ := hin.infix_lines hf
  refine ⟨f, g, hf, hg, fun ls hls hne hheld => ?_⟩
  have hinfix : indent d ls <:+: indent 0 f.lines := (infix_indent d hls).trans hlines
  have hf_ne : f.lines ≠ [] := by
    intro hnil
    rw [hnil] at hinfix
    exact hne (by simpa using hinfix)
  exact ⟨List.mem_append_right _ (hblocks.subset (assemble_mem_blocks hf_ne)),
    infix_lines_assemble hinfix hne hheld⟩

end Scribe
