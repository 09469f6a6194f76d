import Scribe.Fault
import Scribe.Text.Lines

/-!
# Diagnostics

A fault is shown with the source line it points at, the line's number in a gutter, and carets under
the construct:

```text
error: Unhandled node type 'with_statement' in context 'module'
 --> example.py:3:1
  |
3 | with open(path) as f:
  | ^^^^
```

A diagnostic is a list of lines made of styled pieces. Colour is decided only when the pieces are
written, so that it can add terminal codes around them and nothing else.
-/

namespace Scribe

/-- How a piece of a diagnostic stands out. -/
inductive Style where
  | bold
  | red
  | blue
  deriving DecidableEq, Repr

/-- The terminal code that switches the style on. -/
def Style.code : Style → String
  | .bold => "\x1b[1m"
  | .red => "\x1b[31m"
  | .blue => "\x1b[34m"

/-- The terminal code that switches every style off. -/
def Style.reset : String := "\x1b[0m"

/-- A piece of a diagnostic. -/
structure Piece where
  styles : List Style
  text : String
  deriving DecidableEq, Repr

namespace Piece

/-- A piece that does not stand out. -/
def plain (text : String) : Piece := ⟨[], text⟩

/-- The piece as it is written. -/
def render (color : Bool) (p : Piece) : String :=
  if color && !p.styles.isEmpty then
    "".intercalate (p.styles.map Style.code) ++ p.text ++ Style.reset
  else p.text

end Piece

namespace Diagnostic

/-- Where a token ends when its end is not known. -/
def endsToken (c : Char) : Bool :=
  [' ', '\t', ':', ',', '(', ')', '[', ']'].contains c

/-- The number of characters of the token at `column` (from zero), at least one. -/
def guessSpan (line : String) (column : Nat) : Nat :=
  max 1 ((line.toList.drop column).takeWhile (!endsToken ·)).length

/-- The source line with the number `n`, empty if there is none. -/
def sourceLine (source : String) (n : Int) : String :=
  if 1 ≤ n then (Text.lines source).getD (n - 1).toNat "" else ""

/-- Spaces up to the construct, then a caret for each of its characters. -/
def carets (l : Location) (line : String) : String :=
  let column := (max l.column 1 - 1).toNat
  let span :=
    if l.endLine = l.line ∧ l.column < l.endColumn then (l.endColumn - l.column).toNat
    else guessSpan line column
  .ofList (List.replicate column ' ' ++ List.replicate (max 1 span) '^')

/-- The gutter in front of a line without a number. -/
def gutter (width : Nat) : Piece :=
  ⟨[.bold, .blue], .ofList (List.replicate (width + 1) ' ' ++ ['|'])⟩

/-- The lines that show the source. -/
def excerpt (l : Location) (source : String) : List (List Piece) :=
  let number := toString l.line
  let line := sourceLine source l.line
  [[gutter number.length],
   [⟨[.bold, .blue], number ++ " | "⟩, .plain line],
   [gutter number.length, .plain " ", ⟨[.bold, .red], carets l line⟩]]

/-- The lines of a diagnostic; without a source the excerpt is left out. -/
def pieces (f : Fault) (source : Option String) : List (List Piece) :=
  let head : List Piece := [⟨[.bold, .red], "error"⟩, ⟨[.bold], ": " ++ f.message⟩]
  match f.location with
  | none => [head, [⟨[.bold, .blue], " --> "⟩, .plain "<unknown location>"]]
  | some l =>
    let arrow := String.ofList (List.replicate (toString l.line).length ' ') ++ "--> "
    [head, [⟨[.bold, .blue], arrow⟩, .plain l.text]]
      ++ (match source with
        | none => []
        | some s => excerpt l s)

/-- The diagnostic as it is written. -/
def render (color : Bool) (f : Fault) (source : Option String) : String :=
  Text.unlines ((pieces f source).map fun line => "".intercalate (line.map (Piece.render color)))

/-- The environment asks for colour unless `NO_COLOR` is set to something or `PY2TS_COLOR` to a word
for no. -/
def wantsColor (noColor setting : Option String) : Bool :=
  !(noColor.any (!·.isEmpty))
    && !(["0", "false", "no", "never"].contains ((setting.getD "").map Char.toLower))

end Diagnostic

end Scribe
