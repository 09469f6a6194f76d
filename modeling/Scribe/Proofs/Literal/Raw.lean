import Scribe.Proofs.Literal.Token

/-!
# Raw literals

In a raw literal a backslash is a character like any other, so it is written
twice. A raw literal may hold its own quote behind a backslash, though, and
a line break. Neither survives: with the backslash doubled, the quote ends
the written literal, and no literal of the output goes over a line break.

`readLiteral` reads a literal in single quotes as the output language does.
`raw_value_iff` says for which bodies the written form has the body as its
value.
-/

namespace Scribe

open Literal

/-! ## Reading -/

/-- The characters that no literal of the output may hold as they are. -/
def isNewline (c : Char) : Bool :=
  c == '\n' || c == '\r'

/-- The value of a literal from behind its opening quote, `none` if the text
is no such rest of one literal. Two backslashes stand for one. `escape` says
what any other escape stands for, given what follows its backslash, and how
many characters of that belong to it. The first characters of the text, as
many as the number says, belong to an escape before them. -/
def readQuoted (escape : List Char → Option (List Char × Nat)) (quote : Char) :
    Nat → List Char → Option (List Char)
  | _, [] => none
  | n + 1, _ :: cs => readQuoted escape quote n cs
  | 0, c :: cs =>
    if c = quote then if cs.isEmpty then some [] else none
    else if isNewline c then none
    else if c ≠ '\\' then (readQuoted escape quote 0 cs).map (c :: ·)
    else if cs.head? = some '\\' then (readQuoted escape quote 1 cs).map ('\\' :: ·)
    else (escape cs).bind fun (value, n) => (readQuoted escape quote n cs).map (value ++ ·)

/-- **The value of a literal**, if the text is one complete literal between
single quotes of either kind. -/
def readLiteral (escape : List Char → Option (List Char × Nat)) : List Char → Option (List Char)
  | [] => none
  | quote :: cs => if isQuote quote then readQuoted escape quote 0 cs else none

/-! ## Writing -/

/-- The character can stand in a literal with this quote as it is. -/
def isFree (quote c : Char) : Bool :=
  c != quote && !isNewline c

section

variable {escape : List Char → Option (List Char × Nat)} {quote c : Char} {cs : List Char}

/-- A character that stands for itself. -/
theorem readQuoted_cons (hfree : isFree quote c = true) (hslash : c ≠ '\\') :
    readQuoted escape quote 0 (c :: cs) = (readQuoted escape quote 0 cs).map (c :: ·) := by
  simp only [isFree, Bool.and_eq_true, bne_iff_ne, Bool.not_eq_true'] at hfree
  rw [readQuoted, if_neg hfree.1, if_neg (by simp [hfree.2]), if_pos hslash]

/-- Two backslashes. -/
theorem readQuoted_backslashes (hfree : isFree quote '\\' = true) :
    readQuoted escape quote 0 ('\\' :: '\\' :: cs) =
      (readQuoted escape quote 0 cs).map ('\\' :: ·) := by
  simp only [isFree, Bool.and_eq_true, bne_iff_ne, Bool.not_eq_true'] at hfree
  rw [readQuoted, if_neg hfree.1, if_neg (by simp [hfree.2]), if_neg (by simp),
    if_pos List.head?_cons, readQuoted]

/-- A quote or a line break inside a literal. -/
theorem readQuoted_eq_none (hfree : isFree quote c = false) (hcs : cs ≠ []) :
    readQuoted escape quote 0 (c :: cs) = none := by
  rw [readQuoted]
  split
  · rw [if_neg (by simpa using hcs)]
  · rename_i hquote
    have hnewline : isNewline c = true := by
      simpa [isFree, hquote] using hfree
    rw [if_pos hnewline]

end

/-- **Doubled backslashes are read as single ones**, unless a character
cannot stand in the literal. -/
theorem readQuoted_doubleBackslashes (escape : List Char → Option (List Char × Nat)) {quote : Char}
    (hslash : isFree quote '\\' = true) (body : List Char) :
    readQuoted escape quote 0 (doubleBackslashes body ++ [quote]) =
      if body.all (isFree quote) then some body else none := by
  induction body with
  | nil => simp [doubleBackslashes, readQuoted]
  | cons c body ih =>
    by_cases hc : c = '\\'
    · have hdouble : doubleBackslashes (c :: body) = '\\' :: '\\' :: doubleBackslashes body := by
        simp [doubleBackslashes, hc]
      rw [hdouble, List.cons_append, List.cons_append, readQuoted_backslashes hslash, ih,
        List.all_cons, hc, hslash, Bool.true_and, apply_ite (Option.map _), Option.map_some,
        Option.map_none]
    · have hsingle : doubleBackslashes (c :: body) = c :: doubleBackslashes body := by
        simp [doubleBackslashes, hc]
      rw [hsingle, List.cons_append, List.all_cons]
      cases hfree : isFree quote c with
      | true =>
        rw [readQuoted_cons hfree hc, ih, Bool.true_and, apply_ite (Option.map _), Option.map_some,
          Option.map_none]
      | false => rw [readQuoted_eq_none hfree (by simp), Bool.false_and, if_neg (by decide)]

theorem all_isFree_iff {quote : Char} {body : List Char} :
    body.all (isFree quote) = true ↔ quote ∉ body ∧ '\n' ∉ body ∧ '\r' ∉ body := by
  simp only [List.all_eq_true, isFree, isNewline, Bool.and_eq_true, bne_iff_ne, Bool.not_eq_true',
    Bool.or_eq_false_iff, beq_eq_false_iff_ne]
  constructor
  · intro h
    exact ⟨fun hc => (h _ hc).1 rfl, fun hc => (h _ hc).2.1 rfl, fun hc => (h _ hc).2.2 rfl⟩
  · rintro ⟨hquote, hlf, hcr⟩ c hc
    exact ⟨ne_of_mem_of_not_mem hc hquote, ne_of_mem_of_not_mem hc hlf,
      ne_of_mem_of_not_mem hc hcr⟩

/-! ## Tokens -/

/-- What a raw token in single quotes is read as. -/
theorem StringToken.readLiteral_written (escape : List Char → Option (List Char × Nat))
    {t : StringToken} (htriple : t.isTriple = false) (hraw : t.isRaw = true) :
    readLiteral escape (written t.text).toList =
      if t.body.all (isFree t.quote) then some t.body else none := by
  have hslash : isFree t.quote '\\' = true := by
    rcases t.quote_cases with hq | hq
    · rw [hq]
      decide
    · rw [hq]
      decide
  rw [written_raw htriple hraw, readLiteral, if_pos t.quote_isQuote,
    readQuoted_doubleBackslashes escape hslash]

/-- **When a raw literal keeps its characters.** Its written form is one
complete literal with the body as its value, whatever the other escapes
stand for, exactly if neither its own quote nor a line break stands in the
body. Else it is no complete literal at all. -/
theorem raw_value_iff (escape : List Char → Option (List Char × Nat)) (t : StringToken)
    (htriple : t.isTriple = false) (hraw : t.isRaw = true) :
    (readLiteral escape (written t.text).toList = some t.body ↔
      t.quote ∉ t.body ∧ '\n' ∉ t.body ∧ '\r' ∉ t.body) ∧
    (readLiteral escape (written t.text).toList = none ↔
      t.quote ∈ t.body ∨ '\n' ∈ t.body ∨ '\r' ∈ t.body) := by
  rw [StringToken.readLiteral_written escape htriple hraw, ← all_isFree_iff]
  cases hall : t.body.all (isFree t.quote) with
  | true =>
    obtain ⟨hquote, hlf, hcr⟩ := all_isFree_iff.1 hall
    simp [hquote, hlf, hcr]
  | false =>
    have hmem := mt all_isFree_iff.2 (Bool.eq_false_iff.1 hall)
    simp only [Classical.not_and_iff_not_or_not, Classical.not_not] at hmem
    simp [hmem]

/-- A pattern with backslashes, two of them in a row, and the other
quote. -/
def patternToken : StringToken where
  letters := ['R', 'b']
  quote := '"'
  isTriple := false
  body := "\\d+\\\\'\\.".toList
  letters_plain := by simp [isQuote]
  quote_isQuote := isQuote_double
  body_open := by decide

theorem raw_value_iff_pattern :
    patternToken.isTriple = false ∧ patternToken.isRaw = true ∧
    ∀ escape, readLiteral escape (written patternToken.text).toList = some patternToken.body :=
  ⟨rfl, by decide, fun escape =>
    (raw_value_iff escape patternToken rfl (by decide)).1.2 (by decide)⟩

/-- A raw token whose body is a backslash and what it takes along. -/
def takingToken (c : Char) (h : staysOpen ['\''] ['\\', c] = true) : StringToken where
  letters := ['r']
  quote := '\''
  isTriple := false
  body := ['\\', c]
  letters_plain := by simp [isQuote]
  quote_isQuote := isQuote_single
  body_open := h

/-- **A quote behind a backslash ends the literal**, and the quote behind
it is left over; a line break behind one does not end it at all. -/
theorem taken_quote_lost :
    written (takingToken '\'' (by decide)).text = "'\\\\''" ∧
    (∀ escape, readLiteral escape "'\\\\''".toList = none) ∧
    written (takingToken '\n' (by decide)).text = "'\\\\\n'" ∧
    ∀ escape, readLiteral escape "'\\\\\n'".toList = none :=
  ⟨by decide, fun _ => rfl, by decide, fun _ => rfl⟩

end Scribe
