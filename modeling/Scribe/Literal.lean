import Scribe.Text.Margin

/-!
# String literals

A string literal is carried as its text in the source: letters, an opening quote of one or three
characters, the body, and the closing quote. This module reads such a text and writes it for the
output:

* a literal in triple quotes becomes a template literal, whose newlines are kept as `heldNewline`
  until a block is put together;
* any other literal keeps its quotes and body, without the letters;
* a *raw* literal has its backslashes doubled in both forms;
* a literal that stands alone as a statement documents what it stands in and becomes a comment.
-/

namespace Scribe.Literal

open Scribe.Text

/-- Stands for a newline inside a template literal until its block is put together. Source text
cannot hold it. -/
def heldNewline : Char := '\x00'

/-- A character that opens or closes a literal. -/
def isQuote (c : Char) : Bool :=
  c == '\'' || c == '"'

/-- The letters in front of the first quote; none if there is no quote. -/
def letters (text : List Char) : List Char :=
  if text.any isQuote then text.takeWhile (!isQuote ·) else []

/-- The literal from its opening quote on. -/
def unlettered (text : List Char) : List Char :=
  text.drop (letters text).length

/-- The letter, in either case, is among those in front of the literal. -/
def hasLetter (letter : Char) (text : List Char) : Bool :=
  (letters text).any (·.toLower == letter)

/-- Backslashes of the body are characters like any other. -/
def isRaw (text : List Char) : Bool :=
  hasLetter 'r' text

/-- Expressions stand inside the body. -/
def isFormatted (text : String) : Bool :=
  hasLetter 'f' text.toList

/-- The text starts with three quotes. -/
def opensTriple (text : List Char) : Bool :=
  "\"\"\"".toList.isPrefixOf text || "'''".toList.isPrefixOf text

/-- A literal in triple quotes without letters, or with a single letter `r`. -/
def isTripleQuoted (text : String) : Bool :=
  match text.toList with
  | 'r' :: rest => opensTriple rest
  | 'R' :: rest => opensTriple rest
  | cs => opensTriple cs

/-- The characters between the first three and the last three. -/
def tripleBody (text : List Char) : List Char :=
  let body := unlettered text
  (body.drop 3).take (body.length - 6)

/-! ## Writing -/

/-- Every backslash twice. -/
def doubleBackslashes (cs : List Char) : List Char :=
  cs.flatMap fun c => if c = '\\' then ['\\', '\\'] else [c]

/-- A backslash in front of every backquote. -/
def escapeBackquotes (cs : List Char) : List Char :=
  cs.flatMap fun c => if c = '\x60' then ['\\', '\x60'] else [c]

/-- A backslash in front of every dollar sign that would open a substitution. -/
def escapeSubstitutions : List Char → List Char
  | '$' :: '\x7b' :: cs => '\\' :: '$' :: '\x7b' :: escapeSubstitutions cs
  | c :: cs => c :: escapeSubstitutions cs
  | [] => []

/-- Newlines become held newlines. -/
def holdNewlines (cs : List Char) : List Char :=
  cs.map fun c => if c = '\n' then heldNewline else c

/-- Held newlines become newlines. -/
def releaseNewlines (s : String) : String :=
  .ofList (s.toList.map fun c => if c = heldNewline then '\n' else c)

/-- A literal in triple quotes as a template literal. -/
def template (text : List Char) : List Char :=
  let body := tripleBody text
  let body := if isRaw text then doubleBackslashes body else body
  '\x60' :: holdNewlines (escapeSubstitutions (escapeBackquotes body)) ++ ['\x60']

/-- A raw literal in single quotes, from its opening quote on. -/
def rawQuoted (body : List Char) : List Char :=
  match body, body.getLast? with
  | first :: rest, some last => first :: doubleBackslashes rest.dropLast ++ [last]
  | _, _ => []

/-- The literal as it is written in the output. -/
def written (text : String) : String :=
  let cs := text.toList
  let body := unlettered cs
  .ofList (if opensTriple body then template cs else if isRaw cs then rawQuoted body else body)

/-- A backslash inside every sequence that would close a comment. -/
def guardClose : List Char → List Char
  | '*' :: '/' :: cs => '*' :: '\\' :: '/' :: guardClose cs
  | c :: cs => c :: guardClose cs
  | [] => []

/-- The lines of the comment that a documenting literal becomes. -/
def commentLines (text : String) : List String :=
  let body := dedent (.ofList (tripleBody text.toList))
  let guarded := String.ofList (guardClose body.toList)
  "/**" :: (lines guarded).map (fun l => stripEnd (" * " ++ l)) ++ [" */"]

end Scribe.Literal
