/-!
# Lines

Cutting a text into lines and putting it together again. There are two notions of a line:

* `lines` cuts at every newline character and keeps empty pieces, so that joining the pieces with
  newlines gives the text back;
* `breakLines` cuts at every line boundary of Unicode, counts a carriage return followed by a
  newline as one boundary, and yields no piece after a final boundary.
-/

namespace Scribe.Text

/-- The pieces of a text between newline characters; at least one. -/
def lines (s : String) : List String :=
  (s.toList.splitOn '\n').map .ofList

/-- Puts texts together with a newline between neighbours. -/
def unlines (ls : List String) : String :=
  "\n".intercalate ls

/-- A character that ends a line. -/
def isLineBreak (c : Char) : Bool :=
  let n := c.toNat
  (0x0a ≤ n && n ≤ 0x0d) || (0x1c ≤ n && n ≤ 0x1e) || n == 0x85 || n == 0x2028 || n == 0x2029

/-- The lines of a text that follows the characters `line` of the current one. -/
def breakLinesFrom (line : List Char) : List Char → List (List Char)
  | [] => if line.isEmpty then [] else [line]
  | '\r' :: '\n' :: cs => line :: breakLinesFrom [] cs
  | c :: cs =>
    if isLineBreak c then line :: breakLinesFrom [] cs else breakLinesFrom (line ++ [c]) cs

/-- The lines of a text, cut at every line boundary of Unicode. -/
def breakLines (s : String) : List String :=
  (breakLinesFrom [] s.toList).map .ofList

/-- Every line boundary made of a carriage return becomes a single newline. -/
def unifyNewlines : List Char → List Char
  | [] => []
  | '\r' :: '\n' :: cs => '\n' :: unifyNewlines cs
  | c :: cs => (if c = '\r' then '\n' else c) :: unifyNewlines cs

end Scribe.Text
