import Scribe.Proofs.Literal.Token

/-!
# Template literals

A literal in triple quotes is written between backquotes, where a backquote
would end it and `${` would start a substitution. Both get a backslash
in front. A backslash that stands there already makes two of them, which
escape each other and nothing else.

`isTemplate` reads a template literal as the output language does.
`template_whole_iff` says for which bodies the written form is one.
-/

namespace Scribe

open Literal

/-! ## Reading -/

/-- What follows an opening backquote is the rest of one template literal: a
backslash takes the character behind it along, and of the others only the
last is a backquote and none starts a substitution. -/
def closesTemplate : List Char → Bool
  | [] => false
  | ['\x60'] => true
  | '\\' :: _ :: cs => closesTemplate cs
  | c :: cs => c != '\x60' && !(c == '$' && cs.head? == some '\x7b') && closesTemplate cs

/-- **One complete template literal** without substitutions. -/
def isTemplate : List Char → Bool
  | '\x60' :: cs => closesTemplate cs
  | _ => false

/-- The body escapes a mark of template literals: a backslash takes a
backquote along, or the first character of `${`. -/
def escapesMark : List Char → Bool
  | '\\' :: c :: cs =>
    c == '\x60' || (c == '$' && cs.head? == some '\x7b') || escapesMark cs
  | _ :: cs => escapesMark cs
  | [] => false

/-- A character without a backslash in front is checked alone. -/
theorem closesTemplate_cons {c : Char} {cs : List Char} (hslash : c ≠ '\\')
    (hlast : c = '\x60' → cs ≠ []) :
    closesTemplate (c :: cs) =
      (c != '\x60' && !(c == '$' && cs.head? == some '\x7b') && closesTemplate cs) := by
  rw [closesTemplate]
  · rintro rfl rfl
    exact hlast rfl rfl
  · rintro _ _ rfl
    exact absurd rfl hslash

theorem escapesMark_cons {c : Char} {cs : List Char} (hslash : c ≠ '\\') :
    escapesMark (c :: cs) = escapesMark cs := by
  rw [escapesMark]
  rintro _ _ rfl
  exact absurd rfl hslash

/-! ## Writing -/

/-- The body with a backslash in front of its marks. -/
def guardMarks (body : List Char) : List Char :=
  escapeSubstitutions (escapeBackquotes body)

theorem escapeBackquotes_cons {c : Char} {cs : List Char} (hc : c ≠ '\x60') :
    escapeBackquotes (c :: cs) = c :: escapeBackquotes cs := by
  simp [escapeBackquotes, hc]

theorem escapeSubstitutions_cons {c : Char} {cs : List Char}
    (hc : ¬ (c = '$' ∧ cs.head? = some '\x7b')) :
    escapeSubstitutions (c :: cs) = c :: escapeSubstitutions cs := by
  rw [escapeSubstitutions]
  rintro rest rfl rfl
  exact hc ⟨rfl, rfl⟩

theorem head?_escapeBackquotes (cs : List Char) :
    (escapeBackquotes cs).head? = some '\x7b' ↔ cs.head? = some '\x7b' := by
  cases cs with
  | nil => rfl
  | cons c cs =>
    by_cases hc : c = '\x60'
    · simp [escapeBackquotes, hc]
    · rw [escapeBackquotes_cons hc, List.head?_cons, List.head?_cons]

/-- A backquote gets a backslash in front. -/
theorem guardMarks_backquote (cs : List Char) :
    guardMarks ('\x60' :: cs) = '\\' :: '\x60' :: guardMarks cs := by
  have hfirst : escapeBackquotes ('\x60' :: cs) = '\\' :: '\x60' :: escapeBackquotes cs := rfl
  rw [guardMarks, hfirst, escapeSubstitutions_cons (by simp), escapeSubstitutions_cons (by simp),
    guardMarks]

theorem guardMarks_substitution (cs : List Char) :
    guardMarks ('$' :: '\x7b' :: cs) = '\\' :: '$' :: '\x7b' :: guardMarks cs := by
  rw [guardMarks, escapeBackquotes_cons (by decide), escapeBackquotes_cons (by decide),
    escapeSubstitutions, guardMarks]

/-- A character that is no mark stays. -/
theorem guardMarks_cons {c : Char} {cs : List Char} (hc : c ≠ '\x60')
    (hdollar : ¬ (c = '$' ∧ cs.head? = some '\x7b')) :
    guardMarks (c :: cs) = c :: guardMarks cs := by
  rw [guardMarks, escapeBackquotes_cons hc, escapeSubstitutions_cons, guardMarks]
  rwa [head?_escapeBackquotes]

/-- Guards hide no brace behind a dollar sign. -/
theorem head?_guardMarks (cs rest : List Char) :
    (guardMarks cs ++ '\x60' :: rest).head? = some '\x7b' ↔ cs.head? = some '\x7b' := by
  cases cs with
  | nil => simp [guardMarks, escapeBackquotes, escapeSubstitutions]
  | cons c cs =>
    by_cases hquote : c = '\x60'
    · simp [hquote, guardMarks_backquote]
    by_cases hdollar : c = '$' ∧ cs.head? = some '\x7b'
    · obtain ⟨rfl, hhead⟩ := hdollar
      obtain ⟨cs, rfl⟩ := List.head?_eq_some_iff.1 hhead
      simp [guardMarks_substitution]
    · rw [guardMarks_cons hquote hdollar, List.cons_append, List.head?_cons, List.head?_cons]

/-- Holding newlines back moves no mark. -/
theorem hold_eq_iff {m : Char} (hm : m ≠ '\n') (hheld : m ≠ heldNewline) (c : Char) :
    (if c = '\n' then heldNewline else c) = m ↔ c = m := by
  split
  · rename_i hc
    rw [hc]
    exact iff_of_false hheld.symm hm.symm
  · exact Iff.rfl

/-- **Held newlines** are read like any other character. -/
theorem closesTemplate_holdNewlines (cs : List Char) :
    closesTemplate (holdNewlines cs) = closesTemplate cs := by
  have hquote := @hold_eq_iff '\x60' (by decide) (by decide)
  have hslash := @hold_eq_iff '\\' (by decide) (by decide)
  have hdollar := @hold_eq_iff '$' (by decide) (by decide)
  have hbrace := @hold_eq_iff '\x7b' (by decide) (by decide)
  fun_induction closesTemplate cs with
  | case1 => rfl
  | case2 => rfl
  | case3 c cs ih => exact ih
  | case4 c cs hlast htake ih =>
    have hhead : (holdNewlines cs).head? = some '\x7b' ↔ cs.head? = some '\x7b' := by
      cases cs with
      | nil => rfl
      | cons d ds => simp [holdNewlines, hbrace]
    have hcons : holdNewlines (c :: cs) =
        (if c = '\n' then heldNewline else c) :: holdNewlines cs := rfl
    rw [hcons, closesTemplate]
    · rw [Bool.eq_iff_iff]
      simp [hquote, hdollar, hhead, ih]
    · intro hc hnil
      exact hlast ((hquote c).1 hc) (List.map_eq_nil_iff.1 hnil)
    · intro d ds hc hds
      obtain ⟨e, es, rfl, -, -⟩ := List.map_eq_cons_iff.1 hds
      exact htake e es ((hslash c).1 hc) rfl

/-- **What becomes of a body.** Behind its guards it is the rest of one
template literal, unless it escapes a mark itself. -/
theorem closesTemplate_guardMarks {delim body : List Char} (h : staysOpen delim body = true) :
    closesTemplate (guardMarks body ++ ['\x60']) = !escapesMark body := by
  fun_induction staysOpen delim body with
  | case1 => rfl
  | case2 c cs ih =>
    -- the backslash takes `c` along in the body; the guard of a mark would come between them
    have hfirst : guardMarks ('\\' :: c :: cs) = '\\' :: guardMarks (c :: cs) :=
      guardMarks_cons (by decide) (by simp)
    rw [hfirst, escapesMark]
    by_cases hquote : c = '\x60'
    · rw [hquote, guardMarks_backquote]
      simp [closesTemplate]
    by_cases hdollar : c = '$' ∧ cs.head? = some '\x7b'
    · obtain ⟨rfl, hhead⟩ := hdollar
      obtain ⟨cs, rfl⟩ := List.head?_eq_some_iff.1 hhead
      rw [guardMarks_substitution]
      simp [closesTemplate]
    · have hmark : (c == '\x60' || (c == '$' && cs.head? == some '\x7b')) = false := by
        simpa [hquote] using fun hc hhead => hdollar ⟨hc, hhead⟩
      rw [guardMarks_cons hquote hdollar, List.cons_append, List.cons_append, closesTemplate, ih h,
        hmark, Bool.false_or]
  | case3 c cs htake ih =>
    simp only [Bool.and_eq_true, bne_iff_ne] at h
    obtain ⟨⟨hslash, -⟩, hopen⟩ := h
    rw [escapesMark_cons hslash, ← ih hopen]
    by_cases hquote : c = '\x60'
    · rw [hquote, guardMarks_backquote, List.cons_append, List.cons_append, closesTemplate]
    by_cases hdollar : c = '$' ∧ cs.head? = some '\x7b'
    · -- the guard takes the dollar sign along, and the brace alone is no mark
      obtain ⟨rfl, hhead⟩ := hdollar
      obtain ⟨cs, rfl⟩ := List.head?_eq_some_iff.1 hhead
      rw [guardMarks_substitution, guardMarks_cons (by decide) (by simp)]
      rfl
    · have hmark : (c == '$' && (guardMarks cs ++ ['\x60']).head? == some '\x7b') = false := by
        rwa [Bool.eq_false_iff, ne_eq, Bool.and_eq_true, beq_iff_eq, beq_iff_eq, head?_guardMarks]
      rw [guardMarks_cons hquote hdollar, List.cons_append,
        closesTemplate_cons hslash fun hc => absurd hc hquote, hmark, bne_iff_ne.2 hquote,
        Bool.not_false, Bool.true_and, Bool.true_and]

/-! ## Tokens -/

/-- **When a literal in triple quotes stays whole.** If it is not raw, its
written form is one complete template literal exactly if its body escapes
neither a backquote nor the start of a substitution. -/
theorem template_whole_iff (t : StringToken) (htriple : t.isTriple = true)
    (hraw : t.isRaw = false) :
    isTemplate (written t.text).toList = true ↔ escapesMark t.body = false := by
  have hhold : holdNewlines (guardMarks t.body) ++ ['\x60'] =
      holdNewlines (guardMarks t.body ++ ['\x60']) := by
    simp [holdNewlines]
  rw [StringToken.written_template htriple hraw, ← guardMarks, List.cons_append, isTemplate, hhold,
    closesTemplate_holdNewlines, closesTemplate_guardMarks t.body_open, Bool.not_eq_true']

/-- Marks and escapes side by side: a backquote, two backslashes in front of
another one, a newline, and a substitution. -/
def markedToken : StringToken where
  letters := ['b']
  quote := '"'
  isTriple := true
  body := "a \x60 b \\\\\x60\n$$\x7bc\x7d \\t".toList
  letters_plain := by simp [isQuote]
  quote_isQuote := isQuote_double
  body_open := by decide

theorem template_whole_iff_marked :
    markedToken.isTriple = true ∧ markedToken.isRaw = false ∧
    isTemplate (written markedToken.text).toList = true := by
  refine ⟨rfl, by decide, (template_whole_iff markedToken rfl (by decide)).2 ?_⟩
  decide

/-- A token whose body is `mark` behind a backslash. -/
def escapingToken (mark : List Char) (h : staysOpen ['"', '"', '"'] ('\\' :: mark) = true) :
    StringToken where
  letters := []
  quote := '"'
  isTriple := true
  body := '\\' :: mark
  letters_plain := List.forall_mem_nil _
  quote_isQuote := isQuote_double
  body_open := h

/-- **A guard undoes an escape.** The backslash in front of the mark and
that of the guard are read as one backslash, and the mark stands free: a
backquote ends the literal, and a substitution starts. -/
theorem escaped_marks_freed :
    written (escapingToken "\x60".toList (by decide)).text = "\x60\\\\\x60\x60" ∧
    isTemplate "\x60\\\\\x60\x60".toList = false ∧
    written (escapingToken "$\x7bx\x7d".toList (by decide)).text = "\x60\\\\$\x7bx\x7d\x60" ∧
    isTemplate "\x60\\\\$\x7bx\x7d\x60".toList = false := by
  decide

end Scribe
