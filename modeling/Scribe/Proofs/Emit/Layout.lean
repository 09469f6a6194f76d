import Scribe.Emit.Fragment

/-!
# Layout

What cutting a text into lines, indenting lines and putting them
together does to a piece of the text. Cutting and joining are inverse,
indentations add up (`indent_indent`), neighbouring lines stay neighbours
(`infix_indent`), and a piece of a line is kept by joining
(`occurs_unlines`).
-/

namespace Scribe

namespace Text

/-- **`w` occurs in `t`**: it is one contiguous piece of it. -/
def Occurs (w t : String) : Prop :=
  w.toList <:+: t.toList

instance (w t : String) : Decidable (Occurs w t) :=
  inferInstanceAs (Decidable (w.toList <:+: t.toList))

namespace Occurs

variable {u w t : String}

theorem refl (t : String) : Occurs t t :=
  List.infix_rfl

/-- A piece of a piece is a piece. -/
theorem trans (h : Occurs u w) (h' : Occurs w t) : Occurs u t :=
  List.IsInfix.trans h h'

theorem append_left (h : Occurs w t) (a : String) : Occurs w (a ++ t) := by
  rw [Occurs, String.toList_append]
  exact List.infix_append_of_infix_right h

theorem append_right (h : Occurs w t) (a : String) : Occurs w (t ++ a) := by
  rw [Occurs, String.toList_append]
  exact List.infix_append_of_infix_left h

/-- A piece of one of several texts is a piece of all of them joined. -/
theorem intercalate {ts : List String} (hw : Occurs w t) (ht : t ∈ ts) (sep : String) :
    Occurs w (sep.intercalate ts) := by
  induction ts with
  | nil => cases ht
  | cons a ts ih =>
    cases ts with
    | nil =>
      obtain rfl : t = a := by simpa using ht
      simpa using hw
    | cons b ts =>
      rw [String.intercalate_cons_cons]
      rcases List.mem_cons.1 ht with rfl | ht
      · exact (hw.append_right sep).append_right _
      · exact (ih ht).append_left _

end Occurs

/-! ## Cutting and joining -/

/-- A text has at least one line, which may be empty. -/
theorem lines_ne_nil (s : String) : lines s ≠ [] := by
  simp [lines]

theorem unlines_singleton (l : String) : unlines [l] = l :=
  String.intercalate_singleton

/-- Joining the lines of a text gives the text back. -/
@[simp] theorem unlines_lines (s : String) : unlines (lines s) = s := by
  rw [← String.toList_inj]
  simp [unlines, lines, List.map_map, Function.comp_def]

/-- A text without newlines is one line. -/
theorem lines_eq_singleton {s : String} (h : '\n' ∉ s.toList) : lines s = [s] := by
  simp [lines, List.splitOn_eq_singleton h]

theorem not_mem_of_mem_splitOn {xs p : List Char} (h : p ∈ xs.splitOn '\n') : '\n' ∉ p := by
  induction xs generalizing p with
  | nil =>
    obtain rfl : p = [] := by simpa using h
    simp
  | cons x xs ih =>
    obtain ⟨q, qs, hsplit⟩ := List.exists_cons_of_ne_nil (List.splitOn_ne_nil '\n' xs)
    rw [hsplit] at ih
    rw [List.splitOn_cons_eq_if_modifyHead, hsplit] at h
    by_cases hx : x = '\n'
    · rw [if_pos (by simpa using hx)] at h
      rcases List.mem_cons.1 h with rfl | h
      · simp
      · exact ih h
    · rw [if_neg (by simpa using hx), List.modifyHead_cons] at h
      rcases List.mem_cons.1 h with rfl | h
      · simpa [Ne.symm hx] using ih (List.mem_cons_self ..)
      · exact ih (List.mem_cons_of_mem _ h)

/-- No line holds a newline. -/
theorem not_mem_of_mem_lines {s l : String} (h : l ∈ lines s) : '\n' ∉ l.toList := by
  obtain ⟨cs, hcs, rfl⟩ := List.mem_map.1 h
  rw [String.toList_ofList]
  exact not_mem_of_mem_splitOn hcs

/-- Joining two lists of lines is joining the two texts. -/
theorem unlines_append {as bs : List String} (ha : as ≠ []) (hb : bs ≠ []) :
    unlines (as ++ bs) = unlines as ++ "\n" ++ unlines bs :=
  String.intercalate_append_of_ne_nil ha hb

/-- Lines may be cut before they are joined. -/
theorem unlines_flatMap_lines (ls : List String) : unlines (ls.flatMap lines) = unlines ls := by
  induction ls with
  | nil => rfl
  | cons l ls ih =>
    cases ls with
    | nil => simp [unlines_lines, unlines_singleton]
    | cons m ls =>
      have hne : (m :: ls).flatMap lines ≠ [] := by
        simp [lines_ne_nil]
      rw [List.flatMap_cons, unlines_append (lines_ne_nil l) hne, ih, unlines_lines]
      simp [unlines]

/-- A piece of a line is a piece of the lines joined. -/
theorem occurs_unlines {w l : String} {ls : List String} (hw : Occurs w l) (hl : l ∈ ls) :
    Occurs w (unlines ls) :=
  hw.intercalate hl "\n"

end Text

/-! ## Indentation -/

open Text

@[simp] theorem indentLine_zero (l : String) : indentLine 0 l = l := by
  by_cases h : l.isEmpty <;> simp [indentLine]

/-- A line is indented by the sum of both depths. -/
theorem indentLine_indentLine (a b : Nat) (l : String) :
    indentLine a (indentLine b l) = indentLine (a + b) l := by
  by_cases h : l.isEmpty
  · simp [indentLine, h]
  · have hb : (String.ofList (List.replicate (2 * b) ' ') ++ l).isEmpty = false := by
      have hl : l ≠ "" := by simpa using h
      simp [hl]
    rw [indentLine, indentLine, indentLine, if_neg h, if_neg h, if_neg (by simp [hb]),
      ← String.append_assoc, ← String.ofList_append, List.replicate_append_replicate,
      ← Nat.mul_add]

/-- Indentation brings no newline into a line. -/
theorem not_mem_indentLine {l : String} (d : Nat) (h : '\n' ∉ l.toList) :
    '\n' ∉ (indentLine d l).toList := by
  unfold indentLine
  split
  · exact h
  · simp [h]

@[simp] theorem indent_nil (d : Nat) : indent d [] = [] :=
  rfl

@[simp] theorem indent_append (d : Nat) (as bs : List String) :
    indent d (as ++ bs) = indent d as ++ indent d bs :=
  List.flatMap_append

theorem indent_cons (d : Nat) (l : String) (ls : List String) :
    indent d (l :: ls) = indent d [l] ++ indent d ls :=
  indent_append d [l] ls

/-- Without depth the lines are only cut. -/
theorem indent_zero (ls : List String) : indent 0 ls = ls.flatMap lines := by
  rw [indent]
  congr 1
  funext l
  exact (List.map_congr_left fun p _ => indentLine_zero p).trans (List.map_id _)

/-- **Indentations add up.** -/
@[simp] theorem indent_indent (a b : Nat) (ls : List String) :
    indent a (indent b ls) = indent (a + b) ls := by
  simp only [indent, List.flatMap_assoc, List.flatMap_map]
  congr 1
  funext l
  have hcut : ∀ p ∈ lines l, (lines (indentLine b p)).map (indentLine a)
      = [indentLine (a + b) p] := by
    intro p hp
    rw [lines_eq_singleton (not_mem_indentLine b (not_mem_of_mem_lines hp)), List.map_singleton,
      indentLine_indentLine]
  rw [List.flatMap_def, List.map_congr_left hcut, ← List.flatMap_def, ← List.map_eq_flatMap]

/-- Between braces the body is one step deeper. -/
theorem indent_braced (d : Nat) (opening : String) (body : List String) :
    indent d (braced opening body) =
      indent d [opening] ++ indent (d + 1) body ++ indent d ["\x7d"] := by
  rw [braced, indent_append, indent_cons, indent_indent]

@[simp] theorem indent_eq_nil {d : Nat} {ls : List String} : indent d ls = [] ↔ ls = [] := by
  cases ls with
  | nil => simp
  | cons l ls => simp [indent, Text.lines_ne_nil]

/-- Neighbouring lines stay neighbours. -/
theorem infix_indent {as bs : List String} (d : Nat) (h : as <:+: bs) :
    indent d as <:+: indent d bs := by
  obtain ⟨before, after, rfl⟩ := h
  rw [indent_append, indent_append]
  exact ⟨indent d before, indent d after, rfl⟩

end Scribe
