import Scribe.Literal

/-!
# String tokens

A string literal stands in the source as letters, a delimiter of one quote
or three, the body, and the delimiter again. A backslash takes the character
behind it along, in raw literals too, and the token ends at the first
delimiter that no backslash takes along.

The library is handed the text of a token. The lemmas say that the letters,
the delimiter and the body are found in it again.
-/

namespace Scribe

open Literal

/-- What opens and closes a token. -/
def delimiter (quote : Char) (isTriple : Bool) : List Char :=
  if isTriple then [quote, quote, quote] else [quote]

/-- **The token stays open** through the body and is closed by what follows
it: the delimiter does not start inside the body, and no backslash at the
end of the body takes a part of it along. -/
def staysOpen (delim : List Char) : List Char → Bool
  | [] => true
  | '\\' :: _ :: cs => staysOpen delim cs
  | c :: cs => c != '\\' && !delim.isPrefixOf (c :: cs ++ delim) && staysOpen delim cs

/-- Without a backslash the body goes on one character later. -/
theorem staysOpen_cons {delim cs : List Char} {c : Char} (hc : c ≠ '\\') :
    staysOpen delim (c :: cs) = (!delim.isPrefixOf (c :: cs ++ delim) && staysOpen delim cs) := by
  rw [staysOpen, bne_iff_ne.2 hc, Bool.true_and]
  rintro _ _ rfl
  exact absurd rfl hc

theorem isQuote_single : isQuote '\'' = true := rfl

theorem isQuote_double : isQuote '"' = true := rfl

/-- **A string token of the source.** Which letters a literal may have is
left open, but for quotes. -/
structure StringToken where
  letters : List Char
  quote : Char
  isTriple : Bool
  body : List Char
  letters_plain : ∀ c ∈ letters, isQuote c = false
  quote_isQuote : isQuote quote = true
  body_open : staysOpen (delimiter quote isTriple) body = true

namespace StringToken

variable (t : StringToken)

/-- The token from its opening delimiter on. -/
def quoted : List Char :=
  delimiter t.quote t.isTriple ++ t.body ++ delimiter t.quote t.isTriple

/-- The characters of a token. -/
def chars : List Char :=
  t.letters ++ t.quoted

/-- The text of a token. -/
def text : String :=
  .ofList t.chars

/-- A backslash in the body is a character like any other. -/
def isRaw : Bool :=
  t.letters.any (·.toLower == 'r')

/-! ## The parts of its text -/

/-- There are two quotes. -/
theorem quote_cases : t.quote = '\'' ∨ t.quote = '"' := by
  simpa [isQuote] using t.quote_isQuote

theorem quote_ne_backslash : t.quote ≠ '\\' := by
  rcases t.quote_cases with hq | hq
  · simp [hq]
  · simp [hq]

theorem quoted_eq_cons : ∃ rest, t.quoted = t.quote :: rest := by
  unfold quoted delimiter
  split
  · exact ⟨_, rfl⟩
  · exact ⟨_, rfl⟩

/-- **The letters** end at the first quote. -/
theorem letters_chars : Literal.letters t.chars = t.letters := by
  obtain ⟨rest, hquoted⟩ := t.quoted_eq_cons
  have hany : t.chars.any isQuote = true := by
    simp [chars, hquoted, t.quote_isQuote]
  rw [Literal.letters, if_pos hany, chars, hquoted,
    List.takeWhile_append_of_pos (by simpa using t.letters_plain),
    List.takeWhile_cons_of_neg (by simp [t.quote_isQuote]), List.append_nil]

theorem unlettered_chars : unlettered t.chars = t.quoted := by
  rw [unlettered, letters_chars, chars, List.drop_left]

theorem isRaw_chars : Literal.isRaw t.chars = t.isRaw := by
  rw [Literal.isRaw, hasLetter, letters_chars, isRaw]

variable {t}

/-- The body of a token in single quotes does not start with its quote. -/
theorem head?_body_ne (h : t.isTriple = false) : t.body.head? ≠ some t.quote := by
  intro hhead
  obtain ⟨cs, hbody⟩ : ∃ cs, t.body = t.quote :: cs := List.head?_eq_some_iff.1 hhead
  have hopen := t.body_open
  rw [hbody, staysOpen_cons t.quote_ne_backslash] at hopen
  simp [delimiter, h] at hopen

/-- Of three quotes the first two are alike. -/
theorem eq_of_opensTriple {a b : Char} {cs : List Char} (h : opensTriple (a :: b :: cs) = true) :
    a = b ∧ cs ≠ [] := by
  have hchars : "\"\"\"".toList = ['"', '"', '"'] ∧ "'''".toList = ['\'', '\'', '\''] := by
    decide
  simp only [opensTriple, hchars, Bool.or_eq_true, List.isPrefixOf_iff_prefix,
    List.cons_prefix_cons] at h
  rcases h with ⟨rfl, rfl, h⟩ | ⟨rfl, rfl, h⟩
  all_goals
    refine ⟨rfl, ?_⟩
    rintro rfl
    simp at h

/-- **Three quotes** in front of the body are those of the delimiter. -/
theorem opensTriple_quoted : opensTriple t.quoted = t.isTriple := by
  cases htriple : t.isTriple with
  | true =>
    rcases t.quote_cases with hq | hq
    · simp [quoted, delimiter, htriple, hq, opensTriple]
    · simp [quoted, delimiter, htriple, hq, opensTriple]
  | false =>
    have hquoted : t.quoted = t.quote :: (t.body ++ [t.quote]) := by
      simp [quoted, delimiter, htriple]
    refine Bool.eq_false_iff.2 fun hopens => ?_
    rw [hquoted] at hopens
    cases hbody : t.body with
    | nil =>
      rw [hbody] at hopens
      exact (eq_of_opensTriple hopens).2 rfl
    | cons c cs =>
      rw [hbody] at hopens
      refine head?_body_ne htriple ?_
      rw [hbody, (eq_of_opensTriple hopens).1, List.head?_cons]

/-- Between three quotes on either side stands the body. -/
theorem tripleBody_chars (h : t.isTriple = true) : tripleBody t.chars = t.body := by
  simp [tripleBody, unlettered_chars, quoted, delimiter, h]

/-! ## Its written form -/

/-- A token in triple quotes that is not raw is written with its marks
escaped. -/
theorem written_template (h : t.isTriple = true) (hraw : t.isRaw = false) :
    (written t.text).toList =
      '\x60' :: holdNewlines (escapeSubstitutions (escapeBackquotes t.body)) ++ ['\x60'] := by
  simp [written, text, unlettered_chars, opensTriple_quoted, h, template, isRaw_chars, hraw,
    tripleBody_chars h]

/-- A raw token in single quotes is written with its backslashes doubled. -/
theorem written_raw (h : t.isTriple = false) (hraw : t.isRaw = true) :
    (written t.text).toList = t.quote :: (doubleBackslashes t.body ++ [t.quote]) := by
  have hwritten : written t.text = .ofList (rawQuoted t.quoted) := by
    simp [written, text, unlettered_chars, opensTriple_quoted, h, isRaw_chars, hraw]
  have hquoted : t.quoted = t.quote :: (t.body ++ [t.quote]) := by
    simp [quoted, delimiter, h]
  have hlast : (t.quote :: (t.body ++ [t.quote])).getLast? = some t.quote := by
    rw [← List.cons_append, List.getLast?_concat]
  rw [hwritten, hquoted, String.toList_ofList, rawQuoted.eq_1 _ _ _ hlast, List.dropLast_concat,
    List.cons_append]

end StringToken

end Scribe
