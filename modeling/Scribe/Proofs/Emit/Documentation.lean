import Scribe.Proofs.Emit.BlockLines

/-!
# Documentation

A literal that stands alone as a statement is written as a comment, whatever
its text. Only the last two characters of that comment may close it.

The text goes through several steps before it stands there. Each of them is
one way to bring a star and a slash together that were apart, and none does:
the guard puts a backslash between them, every line gets its own star with a
blank behind it, trimming takes characters from the end only, and
indentation puts blanks in front. `documentation_closes_once` follows a
comment from any depth of a module to the lines of its block.
-/

namespace Scribe

open Text

/-- **The lines are one comment** with `margin` in front of each: they open
it, go on with a star, and close it at the very end and nowhere before. -/
structure IsComment (margin : String) (ls : List String) : Prop where
  shape : ∃ inner, ls = (margin ++ "/**") :: inner ++ [margin ++ " */"] ∧
    ∀ l ∈ inner, ∃ rest, l = margin ++ " *" ++ rest
  closed : ∀ before after, unlines ls = before ++ "*/" ++ after → after = ""

/-! ## Pieces of lines -/

/-- A piece does not go over a character that it does not have. -/
theorem infix_append_cons {w xs ys : List Char} {c : Char} (hc : c ∉ w)
    (h : w <:+: xs ++ c :: ys) : w <:+: xs ∨ w <:+: ys := by
  have hstart : ∀ {u : List Char}, c ∉ u → u <+: c :: ys → u = [] := by
    intro u hu hpre
    cases u with
    | nil => rfl
    | cons a u =>
      obtain ⟨rfl, -⟩ := List.cons_prefix_cons.1 hpre
      exact absurd (List.mem_cons_self ..) hu
  rcases List.infix_append_iff.1 h with h | h | ⟨front, back, rfl, hfront, hback⟩
  · exact .inl h
  · rcases List.infix_cons_iff.1 h with h | h
    · exact .inl (hstart hc h ▸ List.nil_infix)
    · exact .inr h
  · obtain rfl := hstart (fun hmem => hc (List.mem_append_right _ hmem)) hback
    rw [List.append_nil]
    exact .inl hfront.isInfix

/-- **What has no newline stands on one line.** -/
theorem exists_occurs_of_unlines {w : String} {ls : List String} (hline : '\n' ∉ w.toList)
    (hls : ls ≠ []) (h : Occurs w (unlines ls)) : ∃ l ∈ ls, Occurs w l := by
  induction ls with
  | nil => exact absurd rfl hls
  | cons l ls ih =>
    cases ls with
    | nil => exact ⟨l, List.mem_cons_self .., by rwa [unlines_singleton] at h⟩
    | cons m ls =>
      have hcut : (unlines (l :: m :: ls)).toList =
          l.toList ++ '\n' :: (unlines (m :: ls)).toList := by
        simp [unlines, String.intercalate_cons_cons]
      rw [Occurs, hcut] at h
      rcases infix_append_cons hline h with h | h
      · exact ⟨l, List.mem_cons_self .., h⟩
      · obtain ⟨k, hk, hocc⟩ := ih (List.cons_ne_nil _ _) h
        exact ⟨k, List.mem_cons_of_mem _ hk, hocc⟩

theorem occurs_of_mem_lines {l t : String} (h : l ∈ lines t) : Occurs l t := by
  have hocc := occurs_unlines (Occurs.refl l) h
  rwa [unlines_lines] at hocc

theorem prefix_trimEnd (p : Char → Bool) (cs : List Char) : trimEnd p cs <+: cs := by
  have h := List.reverse_prefix.2 (List.dropWhile_suffix (l := cs.reverse) p)
  rwa [List.reverse_reverse] at h

/-- Lines without newlines are only moved in. -/
theorem indent_eq_map (d : Nat) {ls : List String} (h : ∀ l ∈ ls, '\n' ∉ l.toList) :
    indent d ls = ls.map (indentLine d) := by
  rw [indent, List.map_eq_flatMap]
  refine List.flatMap_congr fun l hl => ?_
  rw [lines_eq_singleton (h l hl), List.map_singleton]

/-! ## Stars and slashes -/

theorem head?_guardClose (cs : List Char) : (Literal.guardClose cs).head? = cs.head? := by
  fun_cases Literal.guardClose cs <;> rfl

/-- **The guard leaves nothing that closes a comment.** -/
theorem not_infix_guardClose (cs : List Char) : ¬ ['*', '/'] <:+: Literal.guardClose cs := by
  fun_induction Literal.guardClose cs with
  | case1 cs ih => simpa [List.infix_cons_iff] using ih
  | case2 c cs hopen ih =>
    rw [List.infix_cons_iff]
    rintro (hstart | hinfix)
    · -- a slash behind the star would have been there before
      obtain ⟨rfl, rest, hrest⟩ := List.cons_prefix_cons.1 hstart
      have hhead : cs.head? = some '/' := by
        rw [← head?_guardClose, ← hrest]
        rfl
      obtain ⟨cs, rfl⟩ := List.head?_eq_some_iff.1 hhead
      exact hopen cs rfl rfl
    · exact ih hinfix
  | case3 => simp

/-- Blanks in front of a line close nothing. -/
theorem not_occurs_margin_append (d : Nat) {l : String} (h : ¬ Occurs "*/" l) :
    ¬ Occurs "*/" (.ofList (blanks d) ++ l) := by
  have hblanks : ∀ n, ¬ ['*', '/'] <:+: List.replicate n ' ' ++ l.toList := by
    intro n
    induction n with
    | zero => exact h
    | succ n ih => simpa [List.replicate_succ, List.infix_cons_iff] using ih
  intro hocc
  rw [Occurs, String.toList_append, String.toList_ofList] at hocc
  exact hblanks (2 * d) (by simpa [blanks] using hocc)

/-! ## The lines of a comment -/

/-- A line inside a comment, made from a line of the text. -/
def innerLine (l : String) : String :=
  stripEnd (" * " ++ l)

theorem toList_innerLine (l : String) :
    (innerLine l).toList = ' ' :: '*' :: trimEnd isBlank (' ' :: l.toList) := by
  have hstar : isBlank '*' = false := by decide
  have hblank : isBlank ' ' = true := by decide
  rw [innerLine, stripEnd, String.toList_ofList]
  -- trimming stops at the star if nothing else is left
  by_cases hrest : List.dropWhile isBlank l.toList.reverse = []
  · simp [trimEnd, List.dropWhile_append, hrest, hstar, hblank]
  · simp [trimEnd, List.dropWhile_append, hrest]

theorem not_mem_innerLine {c : Char} {l : String} (h : c ∉ " * ".toList ++ l.toList) :
    c ∉ (innerLine l).toList := by
  intro hmem
  rw [innerLine, stripEnd, String.toList_ofList] at hmem
  exact h (String.toList_append ▸ (prefix_trimEnd _ _).subset hmem)

/-- **A line that closes nothing** still closes nothing behind its star. -/
theorem not_occurs_innerLine {l : String} (h : ¬ Occurs "*/" l) : ¬ Occurs "*/" (innerLine l) := by
  intro hocc
  have hline : ['*', '/'] <:+: ' ' :: '*' :: ' ' :: l.toList := by
    refine List.IsInfix.trans hocc ?_
    rw [toList_innerLine]
    exact List.IsPrefix.isInfix
      (List.cons_prefix_cons.2 ⟨rfl, List.cons_prefix_cons.2 ⟨rfl, prefix_trimEnd _ _⟩⟩)
  exact h (by simpa [Occurs, List.infix_cons_iff] using hline)

/-- The lines of a documentation text, with nothing in them that closes a
comment. -/
def guardedLines (text : String) : List String :=
  lines (.ofList (Literal.guardClose (dedent (.ofList (Literal.tripleBody text.toList))).toList))

theorem commentLines_eq (text : String) :
    Literal.commentLines text = "/**" :: (guardedLines text).map innerLine ++ [" */"] := by
  unfold Literal.commentLines guardedLines innerLine
  rfl

theorem not_occurs_of_mem_guardedLines {text l : String} (h : l ∈ guardedLines text) :
    ¬ Occurs "*/" l := by
  intro hocc
  have hguarded := hocc.trans (occurs_of_mem_lines h)
  exact not_infix_guardClose _ (by simpa [Occurs] using hguarded)

theorem not_mem_newline_commentLines {text l : String} (h : l ∈ Literal.commentLines text) :
    '\n' ∉ l.toList := by
  rw [commentLines_eq, List.cons_append, List.mem_cons, List.mem_append, List.mem_singleton] at h
  rcases h with rfl | h | rfl
  · decide
  · obtain ⟨k, hk, rfl⟩ := List.mem_map.1 h
    refine not_mem_innerLine ?_
    simpa using not_mem_of_mem_lines hk
  · decide

/-- The lines of a comment at a depth of indentation. -/
theorem indent_commentLines (d : Nat) (text : String) :
    indent d (Literal.commentLines text) = (.ofList (blanks d) ++ "/**") ::
      (guardedLines text).map (fun l => .ofList (blanks d) ++ innerLine l)
      ++ [.ofList (blanks d) ++ " */"] := by
  have hmargin : ∀ l : String, l ≠ "" → indentLine d l = .ofList (blanks d) ++ l := by
    intro l hl
    rw [indentLine, if_neg (by simpa using hl), blanks]
  have hinner : ∀ l : String, innerLine l ≠ "" := by
    intro l hl
    simpa [hl] using toList_innerLine l
  have hmap : (guardedLines text).map (indentLine d ∘ innerLine) =
      (guardedLines text).map fun l => .ofList (blanks d) ++ innerLine l := by
    refine List.map_congr_left fun l _ => ?_
    rw [Function.comp_apply, hmargin _ (hinner l)]
  rw [indent_eq_map d fun l hl => not_mem_newline_commentLines hl, commentLines_eq,
    List.map_append, List.map_cons, List.map_map, hmap, List.map_singleton,
    hmargin "/**" (by decide), hmargin " */" (by decide)]

/-- Lines that close nothing, and a last one that closes: it does so at its
end. -/
theorem eq_empty_of_closes {ls : List String} {last before after : String} (hls : ls ≠ [])
    (h : ∀ l ∈ ls ++ [last ++ "*"], ¬ Occurs "*/" l)
    (heq : unlines (ls ++ [last ++ "*/"]) = before ++ "*/" ++ after) : after = "" := by
  -- without the last slash nothing is closed
  have hopen : ¬ Occurs "*/" (unlines (ls ++ [last ++ "*"])) := by
    intro hocc
    obtain ⟨l, hl, hocc⟩ := exists_occurs_of_unlines (by decide) (by simp) hocc
    exact h l hl hocc
  have hslash : unlines (ls ++ [last ++ "*/"]) = unlines (ls ++ [last ++ "*"]) ++ "/" := by
    have hstar : "*/" = "*" ++ "/" := by decide
    rw [unlines_append hls (List.cons_ne_nil _ _), unlines_append hls (List.cons_ne_nil _ _),
      unlines_singleton, unlines_singleton, hstar]
    simp only [String.append_assoc]
  rw [hslash] at heq
  have hchars := congrArg String.toList heq
  simp only [String.toList_append] at hchars
  rcases List.eq_nil_or_concat after.toList with hnil | ⟨cs, c, hconcat⟩
  · exact String.toList_eq_nil_iff.1 hnil
  · rw [hconcat, List.concat_eq_append, ← List.append_assoc] at hchars
    have hfront := List.append_inj_left' hchars rfl
    exact absurd ⟨before.toList, cs, hfront.symm⟩ hopen

/-- **A documentation text becomes one comment**, at every depth. -/
theorem isComment_indent_commentLines (d : Nat) (text : String) :
    IsComment (.ofList (blanks d)) (indent d (Literal.commentLines text)) := by
  refine ⟨⟨_, indent_commentLines d text, ?_⟩, fun before after heq => ?_⟩
  · intro l hl
    obtain ⟨k, -, rfl⟩ := List.mem_map.1 hl
    refine ⟨.ofList (trimEnd isBlank (' ' :: k.toList)), String.toList_injective ?_⟩
    simp [toList_innerLine]
  · have hlast : (.ofList (blanks d) ++ " */" : String) = .ofList (blanks d) ++ " " ++ "*/" := by
      rw [String.append_assoc]
      rfl
    rw [indent_commentLines, hlast] at heq
    refine eq_empty_of_closes (List.cons_ne_nil _ _) (fun l hl => ?_) heq
    rw [List.cons_append, List.mem_cons, List.mem_append, List.mem_singleton] at hl
    rcases hl with rfl | hl | rfl
    · exact not_occurs_margin_append d (by decide)
    · obtain ⟨k, hk, rfl⟩ := List.mem_map.1 hl
      exact not_occurs_margin_append d
        (not_occurs_innerLine (not_occurs_of_mem_guardedLines hk))
    · rw [String.append_assoc]
      exact not_occurs_margin_append d (by decide)

theorem not_mem_held_commentLines {text l : String} (hheld : Literal.heldNewline ∉ text.toList)
    (h : l ∈ Literal.commentLines text) : Literal.heldNewline ∉ l.toList := by
  intro hmem
  rcases mem_of_mem_commentLines h hmem with hmark | hmem
  · exact absurd hmark (by decide)
  · exact hheld hmem

/-! ## Blocks -/

/-- **Documentation is closed once.** A documenting literal at any depth of a
module becomes one comment: its lines stand together in the block of the
top-level statement around it, moved in by the depth, they open the comment
and go on with a star, and only the last two of their characters close
it. -/
theorem documentation_closes_once {p : Program} {blocks : List String} (h : p.blocks = .ok blocks)
    {st : Stmt} (hst : st ∈ p.body) {d : Nat} {s : Scope} {text : String} {loc : Option Location}
    (hin : st.Holds .top d s (.comment text loc)) (hheld : Literal.heldNewline ∉ text.toList) :
    ∃ f, st.emit .top = .ok f ∧ assemble f.lines ∈ blocks ∧
      indent d (Literal.commentLines text) <:+: lines (assemble f.lines) ∧
      IsComment (.ofList (blanks d)) (indent d (Literal.commentLines text)) := by
  obtain ⟨f, g, hf, hg, hblock⟩ := infix_block_lines h hst hin
  obtain rfl := Except.ok.inj hg
  obtain ⟨hmem, hinfix⟩ := hblock (Literal.commentLines text) List.infix_rfl
    (List.cons_ne_nil _ _) fun l hl => not_mem_held_commentLines hheld hl
  exact ⟨f, hf, hmem, hinfix, isComment_indent_commentLines d text⟩

/-- A text with stars and slashes side by side, and others that only a line
break and its indentation keep apart. -/
def starredText : String :=
  "'''**//\n\t*\n\t/*/'''"

/-- The text under a condition in a method. -/
def starredClass : Stmt :=
  .classDefinition "A" [.function "m" [.reference "self" none none]
    [.conditional [.mk (some (.reference "b" none none)) [.comment starredText none]] none]
    none [] none] none [] none

/-- What the class is written as. -/
def starredBlock : String :=
  "class A \x7b\n  m() \x7b\n    if (b) \x7b\n" ++
    "      /**\n       * **\\//\n       * *\n       * /*\\/\n       */\n    \x7d\n  \x7d\n\x7d"

theorem documentation_closes_once_starred :
    Program.blocks ⟨[starredClass], none⟩ = .ok [starredBlock] ∧
    Literal.heldNewline ∉ starredText.toList ∧
    indent 3 (Literal.commentLines starredText) <:+: lines starredBlock ∧
    IsComment (.ofList (blanks 3)) (indent 3 (Literal.commentLines starredText)) := by
  have hblocks : Program.blocks ⟨[starredClass], none⟩ = .ok [starredBlock] :=
    Result.eq_ok_of_toOption (by decide +kernel)
  have hheld : Literal.heldNewline ∉ starredText.toList := by decide +kernel
  have hin : starredClass.Holds .top 3 _ (.comment starredText none) :=
    .classDefinition (List.mem_singleton_self _) (.function (List.mem_singleton_self _)
      (.conditional (List.mem_singleton_self _) (List.mem_singleton_self _) .self))
  obtain ⟨f, -, hmem, hinfix, hcomment⟩ :=
    documentation_closes_once hblocks (List.mem_singleton_self _) hin hheld
  rw [List.mem_singleton.1 hmem] at hinfix
  exact ⟨hblocks, hheld, hinfix, hcomment⟩

end Scribe
