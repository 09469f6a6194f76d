/-!
# Command words

Splitting a command line into words as a shell does: blanks separate words, single quotes keep
everything between them, double quotes keep everything but a backslash in front of a double quote
or a backslash, and outside quotes a backslash keeps the character after it. Quotes with nothing
between them make an empty word.
-/

namespace Scribe.Shell

/-- Why a command line has no words. -/
inductive WordError where
  /-- A quote is never closed. -/
  | openQuote
  /-- The line ends in a backslash that keeps nothing. -/
  | openEscape
  deriving DecidableEq, Repr

/-- The error in words. -/
def WordError.message : WordError → String
  | .openQuote => "No closing quotation"
  | .openEscape => "No escaped character"

/-- A character that separates words. -/
def isSeparator (c : Char) : Bool :=
  c == ' ' || c == '\t' || c == '\r' || c == '\n'

/-- Where the reader stands: the quote it is inside of, if any, and whether the last character was a
backslash that keeps the next one. -/
structure Position where
  quote : Option Char
  escaping : Bool
  deriving DecidableEq, Repr

/-- Outside quotes, with nothing escaped. -/
def Position.plain : Position := ⟨none, false⟩

/-- The words of the remaining line; `word` is the current one, `none` between words. -/
def wordsFrom (pos : Position) (word : Option (List Char)) :
    List Char → Except WordError (List (List Char))
  | [] =>
    if pos.escaping then .error .openEscape
    else if pos.quote.isSome then .error .openQuote
    else .ok word.toList
  | c :: cs =>
    let token := word.getD []
    if pos.escaping then
      match pos.quote with
      | none => wordsFrom .plain (some (token ++ [c])) cs
      | some q =>
        let kept := if c = '\\' || c = q then [c] else ['\\', c]
        wordsFrom ⟨some q, false⟩ (some (token ++ kept)) cs
    else match pos.quote with
      | some q =>
        if c = q then wordsFrom .plain (some token) cs
        else if c = '\\' && q = '"' then wordsFrom ⟨some q, true⟩ (some token) cs
        else wordsFrom pos (some (token ++ [c])) cs
      | none =>
        if isSeparator c then
          match word with
          | none => wordsFrom .plain none cs
          | some w => (wordsFrom .plain none cs).map (w :: ·)
        else if c = '\\' then wordsFrom ⟨none, true⟩ (some token) cs
        else if c = '\'' || c = '"' then wordsFrom ⟨some c, false⟩ (some token) cs
        else wordsFrom .plain (some (token ++ [c])) cs

/-- The words of a command line. -/
def words (line : String) : Except WordError (List String) :=
  (wordsFrom .plain none line.toList).map fun ws => ws.map .ofList

end Scribe.Shell
