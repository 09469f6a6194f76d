import Scribe.Decimal.Binary64
import Scribe.Text.Blank
import Scribe.Text.Word

/-!
# Numerals

The texts that denote a number: an optional sign, digits with an optional point, an optional
exponent; or `inf`, `infinity` and `nan` in any case. Digits of every script count, blanks around
the numeral are ignored, and a single underscore may stand between two digits.
-/

namespace Scribe.Binary64

open Scribe.Text

/-- A character as numerals see it: digits of every script as ASCII digits, blanks beyond ASCII as
spaces. -/
def plainChar (c : Char) : Char :=
  if c.toNat < 0x7f then c
  else if isBlank c then ' '
  else match digitValue? c with
    | some d => Char.ofNat (48 + d)
    | none => '?'

/-- Blanks that may surround a numeral. -/
def isNumeralBlank (c : Char) : Bool :=
  c == ' ' || (0x09 ≤ c.toNat && c.toNat ≤ 0x0d)

/-- Removes the underscores between digits; `before` says whether a digit precedes. -/
def dropUnderscores (before : Bool) : List Char → Option (List Char)
  | [] => some []
  | '_' :: cs =>
    match cs with
    | d :: _ => if before && d.isDigit then dropUnderscores false cs else none
    | [] => none
  | c :: cs => (dropUnderscores c.isDigit cs).map (c :: ·)

/-- The value of a list of ASCII digits. -/
def digitsValue (ds : List Char) : Nat :=
  ds.foldl (fun n d => 10 * n + (d.toNat - 48)) 0

/-- An optional sign: whether it is a minus, and the rest. -/
def splitSign : List Char → Bool × List Char
  | '-' :: cs => (true, cs)
  | '+' :: cs => (false, cs)
  | cs => (false, cs)

/-- The exponent after the digits: nothing, or `e` and a signed whole number. -/
def readExponent : List Char → Option Int
  | [] => some 0
  | e :: cs =>
    if e = 'e' || e = 'E' then
      let (negative, ds) := splitSign cs
      if ds.isEmpty || !ds.all Char.isDigit then none
      else some (if negative then -(digitsValue ds : Int) else digitsValue ds)
    else none

/-- A numeral without its sign. -/
def readUnsigned (negative : Bool) (cs : List Char) : Option Binary64 :=
  let lower := cs.map Char.toLower
  if lower = "inf".toList || lower = "infinity".toList then some (.infinite negative)
  else if lower = "nan".toList then some .notNumber
  else
    let whole := cs.takeWhile Char.isDigit
    let rest := cs.dropWhile Char.isDigit
    let (part, rest) := match rest with
      | '.' :: cs => (cs.takeWhile Char.isDigit, cs.dropWhile Char.isDigit)
      | cs => ([], cs)
    if whole.isEmpty && part.isEmpty then none
    else (readExponent rest).map fun e =>
      ofScaled negative (digitsValue (whole ++ part)) (e - part.length)

/-- The number a text denotes, if it is a numeral. -/
def ofText? (s : String) : Option Binary64 := do
  let cs ← dropUnderscores false (trim isNumeralBlank (s.toList.map plainChar))
  let (negative, cs) := splitSign cs
  readUnsigned negative cs

end Scribe.Binary64
