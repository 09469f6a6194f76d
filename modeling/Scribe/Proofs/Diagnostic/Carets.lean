import Mathlib.Data.List.DropRight
import Scribe.Diagnostic
import Scribe.Proofs.Emit.Hanging
import Scribe.Proofs.Text.Offset

/-!
# Where the carets stand

A diagnostic shows a source line and below it carets for a construct. The
line is written in characters, but the columns of a place count bytes, so a
character that takes several bytes moves all carets behind it to the right,
and widens a construct that holds it.

`lines_excerpt` describes the two lines, and `carets_under_iff_ascii` says
when the carets are right: exactly if the line is ASCII up to the end of the
construct.
-/

namespace Scribe

open Text

namespace Text

variable {cs : List Char} {i j : Nat}

/-! ## Lines around a position -/

/-- The characters of its line in front of a position. -/
def lineBefore (cs : List Char) (i : Nat) : List Char :=
  (cs.take i).rtakeWhile (· != '\n')

/-- The characters of its line from a position on. -/
def lineAfter (cs : List Char) (i : Nat) : List Char :=
  (cs.drop i).takeWhile (· != '\n')

/-- **The place of a position** as the parser counts: newlines in front of it,
and bytes since the last of them. -/
def pointAt (cs : List Char) (i : Nat) : Point :=
  ⟨(cs.take i).count '\n', (encode (lineBefore cs i)).length⟩

theorem not_mem_lineBefore : '\n' ∉ lineBefore cs i :=
  fun h => by simpa using List.mem_rtakeWhile_imp h

theorem not_mem_lineAfter : '\n' ∉ lineAfter cs i :=
  fun h => by simpa using List.mem_takeWhile_imp h

theorem all_ne_newline {xs : List Char} (h : '\n' ∉ xs) : ∀ c ∈ xs, (c != '\n') = true := by
  rintro c hc
  exact bne_iff_ne.2 fun heq => h (heq ▸ hc)

/-- On one line, the characters in front of a position are those in front of
an earlier one and those in between. -/
theorem lineBefore_append (hij : i ≤ j) (h : '\n' ∉ segment cs i j) :
    lineBefore cs j = lineBefore cs i ++ segment cs i j := by
  have hall : ∀ c ∈ (segment cs i j).reverse, (c != '\n') = true :=
    all_ne_newline (by rwa [List.mem_reverse])
  rw [lineBefore, lineBefore, ← take_append_segment hij, List.rtakeWhile, List.rtakeWhile,
    List.reverse_append, List.takeWhile_append_of_pos hall, List.reverse_append,
    List.reverse_reverse]

theorem lineAfter_append (hij : i ≤ j) (h : '\n' ∉ segment cs i j) :
    lineAfter cs i = segment cs i j ++ lineAfter cs j := by
  rw [lineAfter, ← segment_append_drop hij, List.takeWhile_append_of_pos (all_ne_newline h),
    lineAfter]

/-- The row of a position does not change along a line. -/
theorem row_pointAt (hij : i ≤ j) (h : '\n' ∉ segment cs i j) :
    (pointAt cs j).row = (pointAt cs i).row := by
  rw [pointAt, pointAt, ← take_append_segment hij, List.count_append,
    List.count_eq_zero_of_not_mem h, Nat.add_zero]

/-! ## The line with a row -/

theorem length_splitOn (xs : List Char) : (xs.splitOn '\n').length = xs.count '\n' + 1 := by
  induction xs with
  | nil => simp
  | cons x xs ih =>
    rw [List.splitOn_cons_eq_if_modifyHead, List.count_cons]
    split
    · rw [List.length_cons, ih]
    · rw [List.length_modifyHead, ih, Nat.add_zero]

theorem head?_splitOn (xs : List Char) :
    (xs.splitOn '\n').head? = some (xs.takeWhile (· != '\n')) := by
  have hfirst : '\n' ∉ xs.takeWhile (· != '\n') :=
    fun h => by simpa using List.mem_takeWhile_imp h
  conv_lhs => rw [← List.takeWhile_append_dropWhile (p := (· != '\n')) (l := xs)]
  cases hrest : xs.dropWhile (· != '\n') with
  | nil => rw [List.append_nil, List.splitOn_eq_singleton hfirst]; rfl
  | cons c rest =>
    have hc := List.head?_dropWhile_not (· != '\n') xs
    rw [hrest] at hc
    obtain rfl : c = '\n' := by simpa using hc
    rw [List.splitOn_append_cons_self_of_not_mem hfirst]
    rfl

/-- What stands above the line of a position ends with a newline, if there is
anything. -/
theorem exists_above (cs : List Char) (i : Nat) :
    ∃ above, cs = above ++ (lineBefore cs i ++ cs.drop i) ∧
      above.count '\n' = (pointAt cs i).row ∧ (above = [] ∨ ∃ a, above = a ++ ['\n']) := by
  have hlast := List.rdropWhile_last_not (· != '\n') (cs.take i)
  have htake : (cs.take i).rdropWhile (· != '\n') ++ lineBefore cs i = cs.take i :=
    List.rdropWhile_append_rtakeWhile
  generalize (cs.take i).rdropWhile (· != '\n') = above at hlast htake
  refine ⟨above, ?_, ?_, ?_⟩
  · rw [← List.append_assoc, htake, List.take_append_drop]
  · show above.count '\n' = (cs.take i).count '\n'
    rw [← htake, List.count_append, List.count_eq_zero_of_not_mem not_mem_lineBefore, Nat.add_zero]
  · rcases List.eq_nil_or_concat above with hnil | ⟨a, c, rfl⟩
    · exact .inl hnil
    · obtain rfl : c = '\n' := by simpa using hlast (by simp)
      exact .inr ⟨a, List.concat_eq_append⟩

/-- **The line with the row of a position** is the one around it. -/
theorem splitOn_getElem?_row (cs : List Char) (i : Nat) :
    (cs.splitOn '\n')[(pointAt cs i).row]? = some (lineBefore cs i ++ lineAfter cs i) := by
  obtain ⟨above, hcs, hrow, habove⟩ := exists_above cs i
  have hhead : ((lineBefore cs i ++ cs.drop i).splitOn '\n')[0]? =
      some (lineBefore cs i ++ lineAfter cs i) := by
    rw [← List.head?_eq_getElem?, head?_splitOn,
      List.takeWhile_append_of_pos (all_ne_newline not_mem_lineBefore), lineAfter]
  rw [← hrow, ← hhead]
  rcases habove with rfl | ⟨a, rfl⟩
  · rw [List.count_nil, ← List.nil_append (lineBefore cs i ++ cs.drop i), ← hcs]
  · have hsplit : cs.splitOn '\n' =
        a.splitOn '\n' ++ (lineBefore cs i ++ cs.drop i).splitOn '\n' := by
      conv_lhs => rw [hcs, List.append_assoc, List.singleton_append]
      exact List.splitOn_append_cons_self ..
    rw [hsplit, List.count_append, List.count_singleton_self, ← length_splitOn,
      List.getElem?_append_right (Nat.le_refl _), Nat.sub_self]

end Text

/-! ## The two lines of a diagnostic -/

/-- **The node spans the characters** from one position up to another, and is
placed as the parser counts. -/
def ParsedTree.Stands (cs : List Char) (i j : Nat) : ParsedTree → Prop
  | .node _ startByte endByte start stop _ _ _ =>
    startByte = offset cs i ∧ endByte = offset cs j ∧
      start = pointAt cs i ∧ stop = pointAt cs j

/-- **The carets stand under the characters** from one position up to another:
of the last two lines of the text, the first shows the source line behind a
gutter, and the second has carets below these characters and nowhere else.
Each character of the two lines is one column. -/
def CaretsUnder (cs : List Char) (i j : Nat) (text : String) : Prop :=
  ∃ above gutter shown marks, lines text = above ++ [shown, marks] ∧
    shown.toList = gutter ++ (lineBefore cs i ++ segment cs i j ++ lineAfter cs j) ∧
    ∀ k, marks.toList[k]? = some '^' ↔
      gutter.length + (lineBefore cs i).length ≤ k ∧
        k < gutter.length + (lineBefore cs i).length + (segment cs i j).length

/-- The last two lines of a text and the gutter are determined by it, so only
the places of the carets matter. -/
theorem caretsUnder_iff {cs : List Char} {i j : Nat} {text shown marks : String}
    {above : List String} {gutter : List Char} (hlines : lines text = above ++ [shown, marks])
    (hshown : shown.toList =
      gutter ++ (lineBefore cs i ++ segment cs i j ++ lineAfter cs j)) :
    CaretsUnder cs i j text ↔ ∀ k, marks.toList[k]? = some '^' ↔
      gutter.length + (lineBefore cs i).length ≤ k ∧
        k < gutter.length + (lineBefore cs i).length + (segment cs i j).length := by
  constructor
  · rintro ⟨above', gutter', shown', marks', hlines', hshown', hmarks'⟩
    obtain ⟨-, hlast⟩ := List.append_inj' (hlines.symm.trans hlines') rfl
    obtain ⟨rfl, rfl⟩ : shown = shown' ∧ marks = marks' := by simpa using hlast
    rw [List.append_cancel_right (hshown.symm.trans hshown')]
    exact hmarks'
  · exact fun h => ⟨above, gutter, shown, marks, hlines, hshown, h⟩

namespace Diagnostic

variable {cs : List Char} {i j : Nat} {t : ParsedTree} {file source : String}

/-- The number of the line with a row. -/
def lineNumber (row : Nat) : String :=
  toString ((row : Int) + 1)

theorem not_mem_lineNumber (row : Nat) : '\n' ∉ (lineNumber row).toList := by
  intro h
  rw [show lineNumber row = String.ofList (Nat.toDigits 10 (row + 1)) from rfl,
    String.toList_ofList] at h
  exact absurd (Nat.isDigit_of_mem_toDigits (by decide) (by decide) h) (by decide)

theorem sourceLine_row (source : String) (i : Nat) :
    sourceLine source (((pointAt source.toList i).row : Int) + 1) =
      .ofList (lineBefore source.toList i ++ lineAfter source.toList i) := by
  rw [sourceLine, if_pos (by omega), Int.add_sub_cancel, Int.toNat_natCast, lines,
    List.getD_eq_getElem?_getD, List.getElem?_map, splitOn_getElem?_row]
  rfl

/-- **Carets count bytes**: there are as many in front of them as the line has
bytes in front of the construct, and as many of them as it has bytes. -/
theorem carets_of_stands (hstands : t.Stands cs i j) (hlt : i < j) (hj : j ≤ cs.length)
    (hline : '\n' ∉ segment cs i j) (file line : String) :
    (carets (t.span.location file) line).toList =
      List.replicate (encode (lineBefore cs i)).length ' ' ++
        List.replicate (encode (segment cs i j)).length '^' := by
  obtain ⟨k, sb, eb, s, e, children, err, m⟩ := t
  obtain ⟨-, -, rfl, rfl⟩ := hstands
  have hij := Nat.le_of_lt hlt
  have hcolumn : (pointAt cs j).column =
      (pointAt cs i).column + (encode (segment cs i j)).length := by
    rw [pointAt, lineBefore_append hij hline, encode_append, List.length_append]
    rfl
  have hpos := length_encode_segment_pos hlt hj
  have hrow := row_pointAt hij hline
  have hspaces : (pointAt cs i).column = (encode (lineBefore cs i)).length := rfl
  simp only [carets, ParsedTree.span, Span.location, hrow, hcolumn, String.toList_ofList]
  rw [if_pos ⟨trivial, by omega⟩, ← hspaces]
  congr 2 <;> omega

/-- Without colour the pieces of a line are its texts. -/
theorem render_plain {l : Location} (f : Fault) (source : String) (hf : f.location = some l) :
    ∃ above, render false f (some source) = unlines (above ++
      [toString l.line ++ " | " ++ sourceLine source l.line,
        (gutter (toString l.line).length).text ++ " " ++ carets l (sourceLine source l.line)]) := by
  have hpieces : ∃ head arrow, pieces f (some source) =
      [head, arrow] ++ excerpt l source := by
    rw [pieces, hf]
    exact ⟨_, _, rfl⟩
  obtain ⟨head, arrow, hpieces⟩ := hpieces
  refine ⟨["".intercalate (head.map (Piece.render false)),
    "".intercalate (arrow.map (Piece.render false)), (gutter (toString l.line).length).text], ?_⟩
  rw [render, hpieces]
  simp [excerpt, Piece.render, Piece.plain, String.append_assoc]

/-- **The last two lines of a diagnostic** show the line of the construct, and
below it carets counted in bytes. -/
theorem lines_excerpt (f : Fault) (hstands : t.Stands source.toList i j) (hlt : i < j)
    (hj : j ≤ source.toList.length) (hline : '\n' ∉ segment source.toList i j)
    (hf : f.location = some (t.span.location file)) :
    ∃ above gutter margin shown marks,
      lines (render false f (some source)) = above ++ [shown, marks] ∧
      shown.toList = gutter ++ (lineBefore source.toList i ++ segment source.toList i j
        ++ lineAfter source.toList j) ∧
      margin.length = gutter.length ∧ '^' ∉ margin ∧
      marks.toList = margin ++ List.replicate (encode (lineBefore source.toList i)).length ' '
        ++ List.replicate (encode (segment source.toList i j)).length '^' := by
  obtain ⟨first, hrender⟩ := render_plain f source hf
  have hnumber : (t.span.location file).line = ((pointAt source.toList i).row : Int) + 1 := by
    obtain ⟨k, sb, eb, s, e, children, err, m⟩ := t
    obtain ⟨-, -, rfl, rfl⟩ := hstands
    rfl
  have hcarets := carets_of_stands hstands hlt hj hline file
    (sourceLine source (t.span.location file).line)
  have hfree := not_mem_lineNumber (pointAt source.toList i).row
  have hafter := lineAfter_append (Nat.le_of_lt hlt) hline
  -- closed names keep the number and the marks from being computed below
  generalize carets (t.span.location file) _ = marked at hcarets hrender
  rw [hnumber, sourceLine_row, hafter, ← List.append_assoc, ← lineNumber] at hrender
  generalize lineNumber (pointAt source.toList i).row = number at hrender hfree
  have hshown : (number ++ " | " ++ String.ofList (lineBefore source.toList i ++
      segment source.toList i j ++ lineAfter source.toList j)).toList =
      number.toList ++ [' ', '|', ' '] ++ (lineBefore source.toList i ++
        segment source.toList i j ++ lineAfter source.toList j) := by
    simp
  have hmarks : ((gutter number.length).text ++ " " ++ marked).toList =
      List.replicate (number.length + 1) ' ' ++ ['|', ' '] ++
        List.replicate (encode (lineBefore source.toList i)).length ' ' ++
        List.replicate (encode (segment source.toList i j)).length '^' := by
    simp [gutter, hcarets]
  refine ⟨first.flatMap lines, number.toList ++ [' ', '|', ' '],
    List.replicate (number.length + 1) ' ' ++ ['|', ' '], _, _, ?_, hshown, ?_, by simp,
    hmarks⟩
  · rw [hrender, lines_unlines (by simp), List.flatMap_append, List.flatMap_cons,
      List.flatMap_cons, List.flatMap_nil, lines_eq_singleton, lines_eq_singleton]
    · rfl
    · rw [hmarks]
      simp
    · rw [hshown]
      simp [hfree, hline, not_mem_lineBefore, not_mem_lineAfter]
  · simp [← String.length_toList]

/-! ## When the carets are right -/

/-- Where a text of one character stands behind a text without it. -/
theorem getElem?_append_replicate {xs : List Char} {c : Char} (h : c ∉ xs) (n k : Nat) :
    (xs ++ List.replicate n c)[k]? = some c ↔ xs.length ≤ k ∧ k < xs.length + n := by
  rcases Nat.lt_or_ge k xs.length with hk | hk
  · rw [List.getElem?_append_left hk]
    constructor
    · exact fun hget => absurd (List.mem_of_getElem? hget) h
    · omega
  · rw [List.getElem?_append_right hk, List.getElem?_replicate]
    split
    · simp only [true_iff]
      omega
    · simp only [reduceCtorEq, false_iff]
      omega

/-- Two ranges of positions are one exactly if they start alike and are as
long, unless the first is empty. -/
theorem range_eq_iff {a b m n : Nat} (hm : 0 < m) :
    (∀ k, a ≤ k ∧ k < a + m ↔ b ≤ k ∧ k < b + n) ↔ a = b ∧ m = n := by
  constructor
  · intro h
    have hfirst := (h a).1 (by omega)
    have hlast := (h (a + m - 1)).1 (by omega)
    have hfirst' := (h b).2 (by omega)
    have hlast' := (h (b + n - 1)).2 (by omega)
    omega
  · rintro ⟨rfl, rfl⟩ k
    rfl

/-- **The carets are right exactly on ASCII**: they stand under the characters
of a construct on one line if and only if its line is ASCII up to its end. -/
theorem carets_under_iff_ascii (f : Fault) (file source : String) (t : ParsedTree) (i j : Nat)
    (hstands : t.Stands source.toList i j) (hlt : i < j) (hj : j ≤ source.toList.length)
    (hline : '\n' ∉ segment source.toList i j) (hf : f.location = some (t.span.location file)) :
    CaretsUnder source.toList i j (render false f (some source)) ↔
      ∀ c ∈ lineBefore source.toList i ++ segment source.toList i j, c.toNat < 0x80 := by
  obtain ⟨above, gutter, margin, shown, marks, hlines, hshown, hlength, hmargin, hmarks⟩ :=
    lines_excerpt f hstands hlt hj hline hf
  have hcarets : ∀ k, marks.toList[k]? = some '^' ↔
      gutter.length + (encode (lineBefore source.toList i)).length ≤ k ∧
        k < gutter.length + (encode (lineBefore source.toList i)).length +
          (encode (segment source.toList i j)).length := by
    intro k
    rw [hmarks, getElem?_append_replicate (by simp [hmargin]), List.length_append,
      List.length_replicate, hlength]
  have hranges := range_eq_iff (a := gutter.length + (encode (lineBefore source.toList i)).length)
    (b := gutter.length + (lineBefore source.toList i).length)
    (n := (segment source.toList i j).length) (length_encode_segment_pos hlt hj)
  rw [caretsUnder_iff hlines hshown, List.forall_mem_append, ← length_encode_eq_iff,
    ← length_encode_eq_iff]
  simp only [hcarets]
  rw [hranges, Nat.add_left_cancel_iff]

/-- The set in the second line of `a = 1` and `print {a} in b`. -/
def printedSet : ParsedTree :=
  .node "set" 12 15 ⟨1, 6⟩ ⟨1, 9⟩ [] false false

/-- The fault that the set is not supported. -/
def printedFault : Fault :=
  ⟨.unsupported "set" "comparison_operator", some ⟨"m", 2, 7, 12, 15, 2, 10⟩⟩

/-- The line is ASCII. -/
theorem carets_under_iff_ascii_set :
    ParsedTree.Stands "a = 1\nprint {a} in b".toList 12 15 printedSet ∧
    '\n' ∉ segment "a = 1\nprint {a} in b".toList 12 15 ∧
    printedFault.location = some (printedSet.span.location "m") ∧
    CaretsUnder "a = 1\nprint {a} in b".toList 12 15
      (render false printedFault (some "a = 1\nprint {a} in b")) := by
  have hstands : ParsedTree.Stands "a = 1\nprint {a} in b".toList 12 15 printedSet := by
    refine ⟨?_, ?_, ?_, ?_⟩ <;> decide
  have hline : '\n' ∉ segment "a = 1\nprint {a} in b".toList 12 15 := by decide
  have hascii : (lineBefore "a = 1\nprint {a} in b".toList 12 ++
      segment "a = 1\nprint {a} in b".toList 12 15).all (·.toNat < 0x80) = true := by decide
  exact ⟨hstands, hline, rfl, (carets_under_iff_ascii printedFault "m" "a = 1\nprint {a} in b"
    printedSet 12 15 hstands (by decide) (by decide) hline rfl).2
      fun c hc => by simpa using List.all_eq_true.1 hascii c hc⟩

/-- The set in `é = {1}`, which is not supported. -/
def accentedSet : ParsedTree :=
  .node "set" 5 8 ⟨0, 5⟩ ⟨0, 8⟩ [] false false

/-- The diagnostic for the set. -/
def accentedDiagnostic : String :=
  render false ⟨.unsupported "set" "assignment", some (accentedSet.span.location "m")⟩
    (some "é = {1}")

/-- **A letter of two bytes moves the carets**: they miss the opening brace,
and one of them stands behind the set. -/
theorem carets_moved :
    ParsedTree.Stands "é = {1}".toList 4 7 accentedSet ∧
    lines accentedDiagnostic =
      ["error: Unhandled node type 'set' in context 'assignment'", " --> m:1:6", "  |"] ++
        ["1 | é = {1}", "  |      ^^^"] ∧
    ¬ CaretsUnder "é = {1}".toList 4 7 accentedDiagnostic := by
  have hlines : lines accentedDiagnostic =
      ["error: Unhandled node type 'set' in context 'assignment'", " --> m:1:6", "  |"] ++
        ["1 | é = {1}", "  |      ^^^"] := by
    decide +kernel
  have hshown : "1 | é = {1}".toList = "1 | ".toList ++ (lineBefore "é = {1}".toList 4 ++
      segment "é = {1}".toList 4 7 ++ lineAfter "é = {1}".toList 7) := by decide
  refine ⟨by refine ⟨?_, ?_, ?_, ?_⟩ <;> decide, hlines, ?_⟩
  rw [caretsUnder_iff hlines hshown]
  -- the brace stands in column 8, and a blank below it
  exact fun hunder => absurd ((hunder 8).2 (by decide)) (by decide)

end Diagnostic

end Scribe
