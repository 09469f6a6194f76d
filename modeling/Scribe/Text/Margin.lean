import Scribe.Text.Blank
import Scribe.Text.Lines

/-!
# Margins of documentation text

Documentation is indented with the code around it. `dedent` removes that indentation: tabs become
spaces up to the next multiple of eight columns, the first line loses its leading blanks, every
later line loses the smallest indentation among the later lines that hold more than blanks, and
empty lines at both ends go.
-/

namespace Scribe.Text

/-- Tabs become spaces; `column` counts the characters since the last line break. -/
def expandTabs (column : Nat) : List Char → List Char
  | [] => []
  | c :: cs =>
    if c = '\t' then
      List.replicate (8 - column % 8) ' ' ++ expandTabs (column + (8 - column % 8)) cs
    else if c = '\n' || c = '\r' then c :: expandTabs 0 cs
    else c :: expandTabs (column + 1) cs

/-- The number of leading blanks of a line that holds more than blanks. -/
def indentOf? (line : List Char) : Option Nat :=
  if line.all isBlank then none else some (line.takeWhile isBlank).length

/-- The smallest indentation of the lines that hold more than blanks. -/
def marginOf? (ls : List (List Char)) : Option Nat :=
  (ls.filterMap indentOf?).min?

/-- Drops the empty lines at both ends. -/
def dropEmptyEnds (ls : List (List Char)) : List (List Char) :=
  ((ls.reverse.dropWhile List.isEmpty).reverse).dropWhile List.isEmpty

/-- The lines of a documentation text without their common margin. -/
def dedentLines : List (List Char) → List (List Char)
  | [] => []
  | first :: later =>
    dropEmptyEnds (trimStart isBlank first :: later.map (·.drop ((marginOf? later).getD 0)))

/-- A documentation text without its margin. -/
def dedent (s : String) : String :=
  unlines ((dedentLines ((expandTabs 0 s.toList).splitOn '\n')).map .ofList)

end Scribe.Text
