import Scribe.Decimal.Binary64

/-!
# The shortest decimal of a binary number

`Binary64.text` writes a number with the fewest significant digits that read back as the same
number, and among those the nearest one. The point stands in place as long as it lies within or
next to the digits; farther out the exponent is written.
-/

namespace Scribe.Binary64

/-- `digits * 10 ^ scale` reads back as `m * 2 ^ q`. -/
def readsBack (m : Nat) (q : Int) (digits : Nat) (scale : Int) : Bool :=
  let f := fraction digits scale
  nearest f.1 f.2 == (m, q)

/-- The numerator and denominator of `m * 2 ^ q`. -/
def magnitude (m : Nat) (q : Int) : Nat × Nat :=
  (m * Nat.pow 2 q.toNat, Nat.pow 2 (-q).toNat)

/-- The number of digits in front of the point of `num / den`; it is not positive below one. -/
def pointPlace (num den : Nat) : Int :=
  ((Nat.toDigits 10 (num * Nat.pow 10 400 / den)).length : Int) - 400

/-- The decimal with `count` digits that reads back as `m * 2 ^ q`, the nearer of the two
neighbours where both do, a tie to the even one. -/
def withDigits? (m : Nat) (q : Int) (count : Nat) : Option (Nat × Int) :=
  let (num, den) := magnitude m q
  let scale := pointPlace num den - count
  let top := num * Nat.pow 10 (-scale).toNat
  let bottom := den * Nat.pow 10 scale.toNat
  let low := top / bottom
  match readsBack m q low scale, readsBack m q (low + 1) scale with
  | true, true =>
    let twice := 2 * (top % bottom)
    if twice < bottom || (twice == bottom && low % 2 == 0) then some (low, scale)
    else some (low + 1, scale)
  | true, false => some (low, scale)
  | false, true => some (low + 1, scale)
  | false, false => none

/-- The shortest decimal that reads back, tried from one digit to seventeen. -/
def shortest (m : Nat) (q : Int) : Nat × Int :=
  ((List.range 17).findSome? fun i => withDigits? m q (i + 1)).getD (m, 0)

/-- The digits without trailing zeros, and the number of them in front of the point. -/
def significant (digits : Nat) (scale : Int) : List Char × Int :=
  let ds := Nat.toDigits 10 digits
  ((ds.reverse.dropWhile (· == '0')).reverse, ds.length + scale)

/-- The exponent with its sign and at least two digits. -/
def exponentText (e : Int) : List Char :=
  let ds := Nat.toDigits 10 e.natAbs
  (if e < 0 then '-' else '+') :: (if ds.length < 2 then '0' :: ds else ds)

/-- The significant digits `ds` with `point` of them in front of the point. -/
def digitsText (ds : List Char) (point : Int) : List Char :=
  if point ≤ -4 || 16 < point then
    match ds with
    | [] => []
    | [d] => d :: 'e' :: exponentText (point - 1)
    | d :: rest => d :: '.' :: rest ++ 'e' :: exponentText (point - 1)
  else if point ≤ 0 then '0' :: '.' :: List.replicate (-point).toNat '0' ++ ds
  else if ds.length ≤ point.toNat then
    ds ++ List.replicate (point.toNat - ds.length) '0' ++ ['.', '0']
  else ds.take point.toNat ++ '.' :: ds.drop point.toNat

/-- The text of a number. -/
def text : Binary64 → String
  | .notNumber => "nan"
  | .infinite negative => if negative then "-inf" else "inf"
  | .finite negative m q =>
    let body :=
      if m = 0 then ['0', '.', '0']
      else
        let (digits, scale) := shortest m q
        let (ds, point) := significant digits scale
        digitsText ds point
    .ofList (if negative then '-' :: body else body)

end Scribe.Binary64
