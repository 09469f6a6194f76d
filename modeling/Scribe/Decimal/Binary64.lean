/-!
# Binary floating-point numbers

A number of the 64-bit binary format is kept as its mantissa and exponent, in exact natural-number
arithmetic. `Binary64.ofScaled` rounds a decimal number to the nearest one, a tie to the even
mantissa.
-/

namespace Scribe

/-- A number of the 64-bit binary format: `mantissa * 2 ^ exponent` with a sign, an infinity, or no
number at all. -/
inductive Binary64 where
  | finite (negative : Bool) (mantissa : Nat) (exponent : Int)
  | infinite (negative : Bool)
  | notNumber
  deriving DecidableEq, Repr

namespace Binary64

/-- The quotient rounded to the nearest natural number, a tie to the even one. -/
def roundQuotient (num den : Nat) : Nat :=
  let q := num / den
  let twice := 2 * (num % den)
  if twice < den then q else if den < twice then q + 1 else q + q % 2

/-- The exponent of the largest power of two that is at most `num / den`. -/
def floorLog (num den : Nat) : Int :=
  let k : Int := (num.log2 : Int) - den.log2
  if num * Nat.pow 2 (-k).toNat < den * Nat.pow 2 k.toNat then k - 1 else k

/-- The mantissa and exponent nearest to `num / den`: 53 bits, or fewer at the lowest exponent. -/
def nearest (num den : Nat) : Nat × Int :=
  if num = 0 then (0, -1074)
  else
    let q := max (floorLog num den - 52) (-1074)
    let m := roundQuotient (num * Nat.pow 2 (-q).toNat) (den * Nat.pow 2 q.toNat)
    if m = Nat.pow 2 53 then (Nat.pow 2 52, q + 1) else (m, q)

/-- The numerator and denominator of `digits * 10 ^ scale`. -/
def fraction (digits : Nat) (scale : Int) : Nat × Nat :=
  (digits * Nat.pow 10 scale.toNat, Nat.pow 10 (-scale).toNat)

/-- The number nearest to `digits * 10 ^ scale`. Magnitudes far outside the format are settled by
their number of digits alone. -/
def ofScaled (negative : Bool) (digits : Nat) (scale : Int) : Binary64 :=
  let size := (Nat.toDigits 10 digits).length + scale
  if digits = 0 || size < -330 then .finite negative 0 (-1074)
  else if 310 < size then .infinite negative
  else
    let f := fraction digits scale
    let (m, q) := nearest f.1 f.2
    if 971 < q then .infinite negative else .finite negative m q

end Binary64

end Scribe
