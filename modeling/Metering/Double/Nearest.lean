import Metering.Decimal.Numeral
import Metering.Double.Basic

/-!
This module contains the rounding of fractions, integers and decimal numerals to the nearest
floating-point number.
-/

namespace Metering.Double

open Metering.Decimal

/--
The integer nearest to `n / d`, and of two nearest ones the even one.
-/
def divEven (n d : Nat) : Nat :=
  let q := n / d
  let r := n % d
  if 2 * r < d then q
  else if d < 2 * r then q + 1
  else q + q % 2

/--
The magnitude of the number nearest to `n / d`, and of two nearest ones the even one.

The fraction is counted in the least positive number. As many of its binary digits are kept as a
magnitude has room for, and the exponent is added on top of them, so that a significand rounded up
to the next power of two carries into the exponent by itself.
-/
def nearest (n d : Nat) : Nat :=
  let u := n * 2 ^ 1074
  let shift := Nat.log2 (u / d) - 52
  min infinite (shift * 2 ^ 52 + divEven u (d * 2 ^ shift))

def ofInt (i : Int) : Double :=
  ofMagnitude (i < 0) (nearest i.natAbs 1)

/--
The magnitude nearest to `c * 10 ^ p`, where `c` has `size` digits. Numbers with an exponent that is
far out of range are settled without computing their powers of ten.
-/
def nearestDecimal (c size : Nat) (p : Int) : Nat :=
  if c = 0 then 0
  else if 400 < p then infinite
  else if p + size < -400 then 0
  else if 0 ≤ p then nearest (c * 10 ^ p.toNat) 1
  else nearest c (10 ^ (-p).toNat)

/--
The number of digits from which the place of a numeral among the numbers is told. No point halfway
between two numbers has more.
-/
def digitLimit : Nat := 768

/--
The magnitude nearest to the digits `ds`, of which the first is not zero, times `10 ^ p`.

Digits past the limit only show that the numeral lies above what stands before them, so a single 1
takes their place.
-/
def nearestDigits (ds : List Digit) (p : Int) : Nat :=
  if ds.length ≤ digitLimit then
    nearestDecimal (value ds) ds.length p
  else
    nearestDecimal (value (ds.take digitLimit ++ [1])) (digitLimit + 1)
      (p + (ds.length - (digitLimit + 1) : Nat))

/--
The number nearest to a decimal numeral, unless that is infinite.

Zeros at the end of the fraction are dropped first, but those at the end of an integer count as
digits. Where they go past the limit, a numeral halfway between two numbers is read as the one
further from zero.
-/
def ofNumeral? (n : Numeral) : Option Double :=
  let fraction := dropZeros n.fraction
  let m := nearestDigits ((n.whole ++ fraction).dropWhile (· = 0))
    (n.exponent.getD 0 - fraction.length)
  if m = infinite then none else some (ofMagnitude n.negative m)

end Metering.Double
