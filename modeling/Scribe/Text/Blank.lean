/-!
# Blank characters and trimming

What counts as blank space around a text, and removing it. The blank characters are the spaces and
line breaks of Unicode together with the four information separators U+001C to U+001F.

Texts are handled as lists of characters; `strip` and `stripEnd` are the same operations on
strings.
-/

namespace Scribe.Text

/-- White space, as trimming and the text reader understand it. -/
def isBlank (c : Char) : Bool :=
  let n := c.toNat
  (0x09 ≤ n && n ≤ 0x0d) || (0x1c ≤ n && n ≤ 0x20) || n == 0x85 || n == 0xa0 || n == 0x1680
    || (0x2000 ≤ n && n ≤ 0x200a) || n == 0x2028 || n == 0x2029 || n == 0x202f || n == 0x205f
    || n == 0x3000

/-- Drops the leading characters that satisfy `p`. -/
def trimStart (p : Char → Bool) (cs : List Char) : List Char :=
  cs.dropWhile p

/-- Drops the trailing characters that satisfy `p`. -/
def trimEnd (p : Char → Bool) (cs : List Char) : List Char :=
  (cs.reverse.dropWhile p).reverse

/-- Drops the characters that satisfy `p` from both ends. -/
def trim (p : Char → Bool) (cs : List Char) : List Char :=
  trimEnd p (trimStart p cs)

/-- The text without blanks at its ends. -/
def strip (s : String) : String :=
  .ofList (trim isBlank s.toList)

/-- The text without blanks at its end. -/
def stripEnd (s : String) : String :=
  .ofList (trimEnd isBlank s.toList)

end Scribe.Text
