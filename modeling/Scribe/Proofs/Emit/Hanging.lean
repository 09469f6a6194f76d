import Scribe.Proofs.Emit.Layout

/-!
# Hanging indents

Indentation moves every line of a block in. To a piece of the block,
wherever it starts, this does one thing: the lines behind its first one
move in, and the first goes where the text in front of it puts it.
`hang` is that change. Unlike indentation it is stable under everything
that layout does to a text: a piece of a text hangs as a piece of the
hung text (`Occurs.hang`), hanging twice adds up (`hang_hang`), and the
lines of an indented block hold the hung block (`occurs_indent`).

A text of one line hangs as it is (`hang_eq_self`).
-/

namespace Scribe

open Text

/-- The blanks of `n` levels. -/
def blanks (n : Nat) : List Char :=
  List.replicate (2 * n) ' '

/-- The first line is not empty. -/
def opensLine : List Char → Bool
  | [] => false
  | c :: _ => c != '\n'

/-- The characters with every line behind the first moved in by `n`
levels; an empty line stays empty. -/
def hangChars (n : Nat) : List Char → List Char
  | [] => []
  | c :: cs => c :: ((if c = '\n' ∧ opensLine cs = true then blanks n else []) ++ hangChars n cs)

/-- **The text with a hanging indent of `n` levels.** -/
def Text.hang (n : Nat) (t : String) : String :=
  .ofList (hangChars n t.toList)

/-! ## Pieces of hung characters -/

variable {xs ys cs : List Char}

@[simp] theorem opensLine_nil : opensLine [] = false :=
  rfl

@[simp] theorem opensLine_cons (c : Char) (cs : List Char) : opensLine (c :: cs) = (c != '\n') :=
  rfl

@[simp] theorem opensLine_hangChars (n : Nat) (cs : List Char) :
    opensLine (hangChars n cs) = opensLine cs := by
  cases cs <;> rfl

/-- Two pieces hang apart, but for the blanks of a line that begins
between them. -/
theorem hangChars_append (n : Nat) (xs ys : List Char) :
    hangChars n (xs ++ ys) = hangChars n xs
      ++ ((if xs.getLast? = some '\n' ∧ opensLine ys = true then blanks n else [])
        ++ hangChars n ys) := by
  induction xs with
  | nil => simp [hangChars]
  | cons x xs ih =>
    cases xs with
    | nil => simp [hangChars]
    | cons x' xs =>
      have hopens : opensLine (x' :: xs ++ ys) = opensLine (x' :: xs) := rfl
      rw [List.cons_append, hangChars, ih, hopens, hangChars.eq_2 n x, List.getLast?_cons_cons,
        List.cons_append, List.append_assoc]

/-- A piece of the characters hangs as a piece of them. -/
theorem infix_hangChars (n : Nat) (h : xs <:+: ys) : hangChars n xs <:+: hangChars n ys := by
  obtain ⟨before, after, rfl⟩ := h
  rw [hangChars_append, hangChars_append]
  exact List.infix_append_of_infix_left
    (List.infix_append_of_infix_right List.infix_append_right)

/-- Where no line begins nothing moves in. -/
theorem hangChars_eq_self {n : Nat} (h : '\n' ∉ cs) : hangChars n cs = cs := by
  induction cs with
  | nil => rfl
  | cons c cs ih =>
    obtain ⟨hc, hcs⟩ := not_or.1 (mt List.mem_cons.2 h)
    rw [hangChars, if_neg (fun hand => hc hand.1.symm), ih hcs, List.nil_append]

/-- Blanks in front of a line stay in front of it. -/
theorem hangChars_blanks_append (n b : Nat) (cs : List Char) :
    hangChars n (blanks b ++ cs) = blanks b ++ hangChars n cs := by
  have hlast : (blanks b).getLast? ≠ some '\n' := by
    intro hlast
    have hmem := List.mem_of_getLast? hlast
    simp [blanks] at hmem
  have hblanks : '\n' ∉ blanks b := by simp [blanks]
  rw [hangChars_append, hangChars_eq_self hblanks, if_neg (fun hand => hlast hand.1),
    List.nil_append]

theorem opensLine_blanks_append (b : Nat) (h : opensLine cs = true) :
    opensLine (blanks b ++ cs) = true := by
  cases b with
  | zero => exact h
  | succ b => rfl

theorem blanks_append (a b : Nat) : blanks a ++ blanks b = blanks (a + b) := by
  rw [blanks, blanks, List.replicate_append_replicate, ← Nat.mul_add, blanks]

/-- **Hanging indents add up.** -/
theorem hangChars_hangChars (a b : Nat) (cs : List Char) :
    hangChars a (hangChars b cs) = hangChars (a + b) cs := by
  induction cs with
  | nil => rfl
  | cons c cs ih =>
    by_cases hline : c = '\n' ∧ opensLine cs = true
    · have hopens : opensLine (blanks b ++ hangChars b cs) = true :=
        opensLine_blanks_append b (by rw [opensLine_hangChars, hline.2])
      rw [hangChars, if_pos hline, hangChars, if_pos ⟨hline.1, hopens⟩, hangChars_blanks_append,
        ih, ← List.append_assoc, blanks_append, hangChars, if_pos hline]
    · have hline' : ¬ (c = '\n' ∧ opensLine (hangChars b cs) = true) := by
        rwa [opensLine_hangChars]
      rw [hangChars, if_neg hline, List.nil_append, hangChars, if_neg hline', List.nil_append, ih,
        hangChars, if_neg hline, List.nil_append]

/-! ## Hung texts -/

namespace Text

@[simp] theorem toList_hang (n : Nat) (t : String) : (hang n t).toList = hangChars n t.toList :=
  String.toList_ofList

/-- A text of one line hangs as it is. -/
theorem hang_eq_self {n : Nat} {t : String} (h : '\n' ∉ t.toList) : hang n t = t := by
  rw [hang, hangChars_eq_self h, String.ofList_toList]

@[simp] theorem hang_zero (t : String) : hang 0 t = t := by
  have hzero : ∀ cs, hangChars 0 cs = cs := by
    intro cs
    induction cs with
    | nil => rfl
    | cons c cs ih => simp [hangChars, blanks, ih]
  rw [hang, hzero, String.ofList_toList]

/-- Hanging twice adds up for texts as well. -/
theorem hang_hang (a b : Nat) (t : String) : hang a (hang b t) = hang (a + b) t := by
  rw [hang, toList_hang, hangChars_hangChars, hang]

/-- **A piece of a text hangs as a piece of the hung text.** -/
theorem Occurs.hang {w t : String} (h : Occurs w t) (n : Nat) : Occurs (hang n w) (hang n t) := by
  rw [Occurs, toList_hang, toList_hang]
  exact infix_hangChars n h

end Text

/-! ## Hung lines -/

/-- The characters of a line at a depth of indentation. -/
def indentChars (n : Nat) (cs : List Char) : List Char :=
  if cs = [] then [] else blanks n ++ cs

theorem toList_indentLine (n : Nat) (l : String) :
    (indentLine n l).toList = indentChars n l.toList := by
  rw [indentLine, indentChars]
  by_cases hl : l = ""
  · simp [hl]
  · simp [hl, blanks]

/-- The first piece is empty if there is no line to open. -/
theorem opensLine_of_splitOn {p : List Char} {ps : List (List Char)}
    (h : cs.splitOn '\n' = p :: ps) : opensLine cs = true ↔ p ≠ [] := by
  cases cs with
  | nil =>
    obtain ⟨rfl, -⟩ : [] = p ∧ [] = ps := by simpa using h
    simp
  | cons c cs =>
    obtain ⟨q, qs, hsplit⟩ := List.exists_cons_of_ne_nil (List.splitOn_ne_nil '\n' cs)
    rw [List.splitOn_cons_eq_if_modifyHead, hsplit] at h
    by_cases hc : c = '\n'
    · rw [if_pos (by simpa using hc)] at h
      obtain ⟨rfl, -⟩ := List.cons.inj h
      simp [hc]
    · rw [if_neg (by simpa using hc), List.modifyHead_cons] at h
      obtain ⟨rfl, -⟩ := List.cons.inj h
      simp [hc]

/-- **Hanging line by line**: the first line stays, the others move in. -/
theorem hangChars_eq_intercalate (n : Nat) {p : List Char} {ps : List (List Char)}
    (h : cs.splitOn '\n' = p :: ps) :
    hangChars n cs = ['\n'].intercalate (p :: ps.map (indentChars n)) := by
  induction cs generalizing p ps with
  | nil =>
    obtain ⟨rfl, rfl⟩ : [] = p ∧ [] = ps := by simpa using h
    rfl
  | cons c cs ih =>
    obtain ⟨q, qs, hsplit⟩ := List.exists_cons_of_ne_nil (List.splitOn_ne_nil '\n' cs)
    have hcs := ih hsplit
    have hopens := opensLine_of_splitOn hsplit
    rw [List.splitOn_cons_eq_if_modifyHead, hsplit] at h
    by_cases hc : c = '\n'
    · -- the line behind the newline is moved in, unless it is empty
      rw [if_pos (by simpa using hc)] at h
      obtain ⟨rfl, rfl⟩ := List.cons.inj h
      rw [hangChars, hcs, List.map_cons, indentChars, hc]
      by_cases hq : q = []
      · have hclosed : ¬ opensLine cs = true := fun hopen => hopens.1 hopen hq
        cases qs <;> simp [hq, hclosed, List.intercalate]
      · cases qs <;> simp [hq, hopens.2 hq, List.intercalate]
    · rw [if_neg (by simpa using hc), List.modifyHead_cons] at h
      obtain ⟨rfl, rfl⟩ := List.cons.inj h
      rw [hangChars, if_neg (fun hand => hc hand.1), hcs, List.nil_append]
      cases qs <;> simp [List.intercalate]

namespace Text

/-- Joined lines are cut where they were joined, and at their newlines. -/
theorem lines_unlines {ls : List String} (h : ls ≠ []) : lines (unlines ls) = ls.flatMap lines := by
  have hne : ls.flatMap lines ≠ [] := by
    obtain ⟨l, ls, rfl⟩ := List.exists_cons_of_ne_nil h
    simp [lines_ne_nil]
  have hnl : ∀ cs ∈ (ls.flatMap lines).map String.toList, '\n' ∉ cs := by
    intro cs hcs
    obtain ⟨l, hl, rfl⟩ := List.mem_map.1 hcs
    obtain ⟨k, -, hl⟩ := List.mem_flatMap.1 hl
    exact not_mem_of_mem_lines hl
  have hsep : "\n".toList = ['\n'] := rfl
  rw [← unlines_flatMap_lines, lines, unlines, String.toList_intercalate, hsep,
    List.splitOn_intercalate _ hnl (by simpa using hne)]
  simp

/-- All lines but the first move in. -/
theorem hang_eq_unlines (n : Nat) {t l : String} {ls : List String} (h : lines t = l :: ls) :
    hang n t = unlines (l :: ls.map (indentLine n)) := by
  obtain ⟨p, ps, hsplit⟩ := List.exists_cons_of_ne_nil (List.splitOn_ne_nil '\n' t.toList)
  rw [lines, hsplit, List.map_cons] at h
  obtain ⟨rfl, rfl⟩ := List.cons.inj h
  have hsep : "\n".toList = ['\n'] := rfl
  rw [← String.toList_inj, toList_hang, hangChars_eq_intercalate n hsplit, unlines,
    String.toList_intercalate, hsep]
  simp [toList_indentLine, Function.comp_def]

theorem unlines_cons_append (a l : String) (ls : List String) :
    unlines ((a ++ l) :: ls) = a ++ unlines (l :: ls) := by
  cases ls with
  | nil => simp [unlines]
  | cons k ls =>
    rw [unlines, unlines, String.intercalate_cons_cons, String.intercalate_cons_cons]
    simp only [String.append_assoc]

/-- **An indented block holds the hung block.** -/
theorem occurs_indent (n : Nat) (ls : List String) :
    Occurs (hang n (unlines ls)) (unlines (indent n ls)) := by
  by_cases hls : ls = []
  · subst hls
    exact Occurs.refl _
  · obtain ⟨l, ks, hlines⟩ := List.exists_cons_of_ne_nil (lines_ne_nil (unlines ls))
    have hindent : indent n ls = indentLine n l :: ks.map (indentLine n) := by
      rw [indent, ← List.map_flatMap, ← lines_unlines hls, hlines, List.map_cons]
    rw [hang_eq_unlines n hlines, hindent, indentLine]
    split
    · exact Occurs.refl _
    · rw [unlines_cons_append]
      exact (Occurs.refl _).append_left _

/-- Neighbouring lines are a piece of the text. -/
theorem occurs_unlines_mono {as bs : List String} (h : as <:+: bs) :
    Occurs (unlines as) (unlines bs) := by
  obtain ⟨before, after, rfl⟩ := h
  by_cases has : as = []
  · subst has
    exact List.nil_infix
  have hbefore : Occurs (unlines as) (unlines (before ++ as)) := by
    by_cases hb : before = []
    · rw [hb, List.nil_append]
      exact Occurs.refl _
    · rw [unlines_append hb has]
      exact (Occurs.refl _).append_left _
  by_cases ha : after = []
  · rw [ha, List.append_nil]
    exact hbefore
  · rw [unlines_append (by simp [has]) ha]
    exact (hbefore.append_right _).append_right _

end Text

end Scribe
