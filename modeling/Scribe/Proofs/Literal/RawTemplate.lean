import Scribe.Proofs.Literal.Template
import Scribe.Proofs.Text.Literal
import Scribe.Text.Lines

/-!
# Raw template literals

A raw literal in triple quotes is written between backquotes in three steps,
one behind the other: every backslash is doubled, and then backquotes and
substitutions get a backslash in front. The later steps put their
backslashes between pairs, never into one.

`readTemplate` reads a template literal as the output language does, line
breaks included: there a carriage return is read as a newline.
`raw_template_value_iff` says that nothing else about a body is lost.
-/

namespace Scribe

open Literal

/-! ## Reading -/

/-- The marks that stand for themselves behind a backslash. -/
def isEscapable (c : Char) : Bool :=
  c == '\\' || c == '\x60' || c == '$'

/-- The value of a template literal from behind its opening backquote, `none`
if the text is no such rest of one literal without substitutions. `escape`
says what an escape of anything but a mark stands for, given what follows its
backslash, and how many characters of that belong to it. The first characters
of the text, as many as the number says, belong to what was read before
them. -/
def readTemplateFrom (escape : List Char → Option (List Char × Nat)) :
    Nat → List Char → Option (List Char)
  | _, [] => none
  | n + 1, _ :: cs => readTemplateFrom escape n cs
  | 0, c :: cs =>
    if c = '\x60' then if cs.isEmpty then some [] else none
    else if c = '$' ∧ cs.head? = some '\x7b' then none
    else if c = '\r' then
      (readTemplateFrom escape (if cs.head? = some '\n' then 1 else 0) cs).map ('\n' :: ·)
    else if c ≠ '\\' then (readTemplateFrom escape 0 cs).map (c :: ·)
    else match cs.head?.filter isEscapable with
      | some mark => (readTemplateFrom escape 1 cs).map (mark :: ·)
      | none =>
        (escape cs).bind fun (value, n) => (readTemplateFrom escape n cs).map (value ++ ·)

/-- **The value of a template literal**, if the text is one complete literal
without substitutions. -/
def readTemplate (escape : List Char → Option (List Char × Nat)) : List Char → Option (List Char)
  | '\x60' :: cs => readTemplateFrom escape 0 cs
  | _ => none

section

variable {escape : List Char → Option (List Char × Nat)} {c : Char} {cs : List Char}

/-- A mark behind a backslash. -/
theorem readTemplateFrom_escaped (hc : isEscapable c = true) :
    readTemplateFrom escape 0 ('\\' :: c :: cs) = (readTemplateFrom escape 0 cs).map (c :: ·) := by
  rw [readTemplateFrom, if_neg (by decide), if_neg (by simp), if_neg (by decide), if_neg (by simp),
    List.head?_cons, Option.filter_some_pos hc, readTemplateFrom]

/-- A carriage return, alone. -/
theorem readTemplateFrom_return (h : cs.head? ≠ some '\n') :
    readTemplateFrom escape 0 ('\r' :: cs) = (readTemplateFrom escape 0 cs).map ('\n' :: ·) := by
  rw [readTemplateFrom, if_neg (by decide), if_neg (by simp), if_pos rfl, if_neg h]

/-- A carriage return and the newline behind it are one line break. -/
theorem readTemplateFrom_return_newline :
    readTemplateFrom escape 0 ('\r' :: '\n' :: cs) =
      (readTemplateFrom escape 0 cs).map ('\n' :: ·) := by
  rw [readTemplateFrom, if_neg (by decide), if_neg (by simp), if_pos rfl,
    if_pos List.head?_cons, readTemplateFrom]

/-- A character that stands for itself. -/
theorem readTemplateFrom_cons (hc : isEscapable c = false ∨ c = '$' ∧ cs.head? ≠ some '\x7b')
    (hreturn : c ≠ '\r') :
    readTemplateFrom escape 0 (c :: cs) = (readTemplateFrom escape 0 cs).map (c :: ·) := by
  have hplain : c ≠ '\\' ∧ c ≠ '\x60' ∧ ¬ (c = '$' ∧ cs.head? = some '\x7b') := by
    rcases hc with hc | ⟨rfl, hhead⟩
    · simp only [isEscapable, Bool.or_eq_false_iff, beq_eq_false_iff_ne] at hc
      exact ⟨hc.1.1, hc.1.2, fun hdollar => hc.2 hdollar.1⟩
    · exact ⟨by decide, by decide, fun hdollar => hhead hdollar.2⟩
  rw [readTemplateFrom, if_neg hplain.2.1, if_neg hplain.2.2, if_neg hreturn, if_pos hplain.1]

end

/-! ## Writing -/

/-- A raw body as it is written, newlines apart. -/
def guardRaw (body : List Char) : List Char :=
  guardMarks (doubleBackslashes body)

section

variable {c : Char} {cs : List Char}

theorem doubleBackslashes_cons (hc : c ≠ '\\') :
    doubleBackslashes (c :: cs) = c :: doubleBackslashes cs := by
  simp [doubleBackslashes, hc]

theorem head?_doubleBackslashes (cs : List Char) : (doubleBackslashes cs).head? = cs.head? := by
  cases cs with
  | nil => rfl
  | cons c cs =>
    by_cases hc : c = '\\'
    · simp [doubleBackslashes, hc]
    · rw [doubleBackslashes_cons hc, List.head?_cons, List.head?_cons]

theorem guardRaw_backslash (cs : List Char) :
    guardRaw ('\\' :: cs) = '\\' :: '\\' :: guardRaw cs := by
  have hdouble : doubleBackslashes ('\\' :: cs) = '\\' :: '\\' :: doubleBackslashes cs := rfl
  rw [guardRaw, hdouble, guardMarks_cons (by decide) (by simp),
    guardMarks_cons (by decide) (by simp), guardRaw]

theorem guardRaw_backquote (cs : List Char) :
    guardRaw ('\x60' :: cs) = '\\' :: '\x60' :: guardRaw cs := by
  rw [guardRaw, doubleBackslashes_cons (by decide), guardMarks_backquote, guardRaw]

theorem guardRaw_substitution (cs : List Char) :
    guardRaw ('$' :: '\x7b' :: cs) = '\\' :: '$' :: '\x7b' :: guardRaw cs := by
  rw [guardRaw, doubleBackslashes_cons (by decide), doubleBackslashes_cons (by decide),
    guardMarks_substitution, guardRaw]

/-- A character that is no mark stays. -/
theorem guardRaw_cons (hslash : c ≠ '\\') (hquote : c ≠ '\x60')
    (hdollar : ¬ (c = '$' ∧ cs.head? = some '\x7b')) : guardRaw (c :: cs) = c :: guardRaw cs := by
  rw [guardRaw, doubleBackslashes_cons hslash, guardMarks_cons hquote, guardRaw]
  rwa [head?_doubleBackslashes]

/-- **A body starts as it did**, or with a guard. -/
theorem head?_guardRaw {m : Char} (hslash : m ≠ '\\') (hquote : m ≠ '\x60')
    (h : (guardRaw cs ++ ['\x60']).head? = some m) : cs.head? = some m := by
  cases cs with
  | nil => exact absurd (Option.some.inj h).symm hquote
  | cons c cs =>
    by_cases hc : c = '\\'
    · rw [hc, guardRaw_backslash] at h
      exact absurd (Option.some.inj h).symm hslash
    by_cases hc' : c = '\x60'
    · rw [hc', guardRaw_backquote] at h
      exact absurd (Option.some.inj h).symm hslash
    by_cases hdollar : c = '$' ∧ cs.head? = some '\x7b'
    · obtain ⟨rfl, hhead⟩ := hdollar
      obtain ⟨cs, rfl⟩ := List.head?_eq_some_iff.1 hhead
      rw [guardRaw_substitution] at h
      exact absurd (Option.some.inj h).symm hslash
    · rwa [guardRaw_cons hc hc' hdollar] at h

end

/-- **A raw body is read as it stands**, but for its line breaks. -/
theorem readTemplateFrom_guardRaw (escape : List Char → Option (List Char × Nat))
    (body : List Char) :
    readTemplateFrom escape 0 (guardRaw body ++ ['\x60']) = some (Text.unifyNewlines body) := by
  fun_induction Text.unifyNewlines body with
  | case1 => rfl
  | case2 cs ih =>
    rw [guardRaw_cons (by decide) (by decide) (by simp),
      guardRaw_cons (by decide) (by decide) (by simp), List.cons_append, List.cons_append,
      readTemplateFrom_return_newline, ih, Option.map_some]
  | case3 c cs hbreak ih =>
    by_cases hreturn : c = '\r'
    · have hhead : (guardRaw cs ++ ['\x60']).head? ≠ some '\n' := by
        intro hhead
        obtain ⟨rest, hcs⟩ :=
          List.head?_eq_some_iff.1 (head?_guardRaw (by decide) (by decide) hhead)
        exact hbreak rest hreturn hcs
      rw [hreturn, guardRaw_cons (by decide) (by decide) (by simp), List.cons_append,
        readTemplateFrom_return hhead, ih, Option.map_some, if_pos rfl]
    rw [if_neg hreturn]
    by_cases hslash : c = '\\'
    · rw [hslash, guardRaw_backslash, List.cons_append, List.cons_append,
        readTemplateFrom_escaped rfl, ih, Option.map_some]
    by_cases hquote : c = '\x60'
    · rw [hquote, guardRaw_backquote, List.cons_append, List.cons_append,
        readTemplateFrom_escaped rfl, ih, Option.map_some]
    by_cases hdollar : c = '$' ∧ cs.head? = some '\x7b'
    · -- the guard takes the dollar sign along, and the brace is written as part of the rest
      obtain ⟨rfl, hhead⟩ := hdollar
      obtain ⟨cs, rfl⟩ := List.head?_eq_some_iff.1 hhead
      have hbrace : guardRaw ('\x7b' :: cs) = '\x7b' :: guardRaw cs :=
        guardRaw_cons (by decide) (by decide) (by simp)
      rw [guardRaw_substitution, ← hbrace, List.cons_append, List.cons_append,
        readTemplateFrom_escaped rfl, ih, Option.map_some]
    · have hplain : isEscapable c = false ∨
          c = '$' ∧ (guardRaw cs ++ ['\x60']).head? ≠ some '\x7b' := by
        by_cases hc : c = '$'
        · exact .inr ⟨hc, fun hhead =>
            hdollar ⟨hc, head?_guardRaw (by decide) (by decide) hhead⟩⟩
        · exact .inl (by simp [isEscapable, hslash, hquote, hc])
      rw [guardRaw_cons hslash hquote hdollar, List.cons_append,
        readTemplateFrom_cons hplain hreturn, ih, Option.map_some]

/-! ## Line breaks -/

theorem not_mem_unifyNewlines (cs : List Char) : '\r' ∉ Text.unifyNewlines cs := by
  fun_induction Text.unifyNewlines cs with
  | case1 => simp
  | case2 cs ih => simp [ih]
  | case3 c cs _ ih =>
    split
    · simp [ih]
    · rename_i hc
      simp [ih, Ne.symm hc]

theorem unifyNewlines_eq_self {cs : List Char} (h : '\r' ∉ cs) : Text.unifyNewlines cs = cs := by
  fun_induction Text.unifyNewlines cs with
  | case1 => rfl
  | case2 cs ih => simp at h
  | case3 c cs _ ih =>
    obtain ⟨hc, hcs⟩ := not_or.1 (mt List.mem_cons.2 h)
    rw [if_neg (Ne.symm hc), ih hcs]

/-- Releasing what was held gives a text back that held nothing. -/
theorem release_holdNewlines {cs : List Char} (h : heldNewline ∉ cs) :
    (releaseNewlines (.ofList (holdNewlines cs))).toList = cs := by
  rw [releaseNewlines, String.toList_ofList, String.toList_ofList, holdNewlines, List.map_map]
  refine (List.map_congr_left fun c hc => ?_).trans (List.map_id _)
  have hne : c ≠ heldNewline := ne_of_mem_of_not_mem hc h
  by_cases hline : c = '\n'
  · simp [hline]
  · simp [hline, hne]

/-! ## Tokens -/

namespace StringToken

variable {t : StringToken}

/-- A raw token in triple quotes is written with its backslashes doubled and
its marks escaped. -/
theorem written_rawTemplate (htriple : t.isTriple = true) (hraw : t.isRaw = true) :
    written t.text = .ofList (holdNewlines ('\x60' :: (guardRaw t.body ++ ['\x60']))) := by
  simp [written, text, unlettered_chars, opensTriple_quoted, htriple, template, isRaw_chars, hraw,
    tripleBody_chars htriple, guardRaw, guardMarks, holdNewlines]

theorem not_mem_guardRaw (h : heldNewline ∉ t.body) : heldNewline ∉ guardRaw t.body := by
  intro hmem
  rcases mem_of_mem_escapeSubstitutions hmem with hslash | hmem
  · exact absurd hslash (by decide)
  rcases mem_of_mem_escapeBackquotes hmem with hslash | hmem
  · exact absurd hslash (by decide)
  exact h (mem_of_mem_doubleBackslashes hmem)

end StringToken

/-- **When a raw literal in triple quotes keeps its body.** Its written form,
with the newlines in place, is one complete template literal without
substitutions, whatever other escapes stand for. Its value is the body with
every line break as one newline, so it is the body itself exactly if that has
no carriage return. -/
theorem raw_template_value_iff (escape : List Char → Option (List Char × Nat)) (t : StringToken)
    (htriple : t.isTriple = true) (hraw : t.isRaw = true) (hheld : heldNewline ∉ t.body) :
    readTemplate escape (releaseNewlines (written t.text)).toList =
      some (Text.unifyNewlines t.body) ∧
    (readTemplate escape (releaseNewlines (written t.text)).toList = some t.body ↔
      '\r' ∉ t.body) := by
  have hclean : heldNewline ∉ '\x60' :: (guardRaw t.body ++ ['\x60']) := by
    have hmark : heldNewline ≠ '\x60' := by decide
    simp [hmark, StringToken.not_mem_guardRaw hheld]
  have hvalue : readTemplate escape (releaseNewlines (written t.text)).toList =
      some (Text.unifyNewlines t.body) := by
    rw [StringToken.written_rawTemplate htriple hraw, release_holdNewlines hclean, readTemplate,
      readTemplateFrom_guardRaw]
  refine ⟨hvalue, ?_⟩
  rw [hvalue, Option.some.injEq]
  constructor
  · intro heq
    exact heq ▸ not_mem_unifyNewlines t.body
  · exact unifyNewlines_eq_self

/-- A page with everything the three steps touch side by side: backslashes in
front of a backquote and of a substitution, two dollar signs, and a
newline. -/
def rawPage : StringToken where
  letters := ['R']
  quote := '\''
  isTriple := true
  body := "\\\x60 \\$\x7bx\x7d\n$$\x7b\\\\ 'y' \\d".toList
  letters_plain := by simp [isQuote]
  quote_isQuote := isQuote_single
  body_open := by decide

theorem raw_template_value_iff_page :
    rawPage.isTriple = true ∧ rawPage.isRaw = true ∧ heldNewline ∉ rawPage.body ∧
    '\r' ∉ rawPage.body ∧
    ∀ escape, readTemplate escape (releaseNewlines (written rawPage.text)).toList =
      some rawPage.body := by
  have hheld : heldNewline ∉ rawPage.body := by decide
  have hreturn : '\r' ∉ rawPage.body := by decide
  exact ⟨rfl, by decide, hheld, hreturn, fun escape =>
    (raw_template_value_iff escape rawPage rfl (by decide) hheld).2.2 hreturn⟩

end Scribe
