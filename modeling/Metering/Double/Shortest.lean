import Metering.Decimal.Digits
import Metering.Double.Basic

/-!
This module contains the search for the fewest decimal digits that stand for a floating-point
number.

A decimal stands for a magnitude if the magnitude is the one nearest to it, that is if it lies
between the midpoints to the magnitudes before and after, these included if the magnitude is even.
Everything is counted in `10 ^ -1074`, of which all finite numbers are multiples and all midpoints
between them half multiples.
-/

namespace Metering.Double

open Metering.Decimal

inductive Tie where
  | up
  | even
  deriving DecidableEq

/--
A finite magnitude as a multiple of `10 ^ -1074`.
-/
def scaled (m : Nat) : Nat :=
  units m * 5 ^ 1074

/--
Whether the decimal `x * 10 ^ -1074` stands for a magnitude.
-/
def standsFor (m x : Nat) : Bool :=
  let lower := scaled (m - 1) + scaled m
  let upper := scaled m + scaled (m + 1)
  if m % 2 = 0 then lower ≤ 2 * x && 2 * x ≤ upper else lower < 2 * x && 2 * x < upper

/--
Of the multiples of `step` next to `v`, which are `q * step` and `(q + 1) * step`, the nearer one.
-/
def nearerMultiple (tie : Tie) (v step : Nat) : Nat :=
  let q := v / step
  let r := v % step
  if 2 * r < step then q
  else if step < 2 * r then q + 1
  else
    match tie with
    | .up => q + 1
    | .even => q + q % 2

/--
A decimal with few digits that stands for a magnitude: the coarsest grid of a power of ten
`10 ^ s` is used on which one of the two neighbours of the magnitude stands for it, from the given
one down to `10 ^ 0`, on which the magnitude lies itself. The result is the multiple and `s`.
-/
def coarsest (tie : Tie) (m : Nat) (s : Nat) : Nat × Nat :=
  let v := scaled m
  let step := 10 ^ s
  let q := v / step
  match standsFor m (q * step), standsFor m ((q + 1) * step) with
  | true, true => (nearerMultiple tie v step, s)
  | true, false => (q, s)
  | false, true => (q + 1, s)
  | false, false =>
    match s with
    | 0 => (v, 0)
    | s + 1 => coarsest tie m s

/--
A positive decimal `d.ddd * 10 ^ exponent`.
-/
structure Scientific where
  digits : List Digit
  exponent : Int
  deriving DecidableEq

/--
The decimal `c * 10 ^ (s - 1074)` without the zeros at the end of its digits.
-/
def Scientific.ofMultiple (c s : Nat) : Scientific :=
  ⟨dropZeros (Decimal.digits c), s + (Decimal.digits c).length - 1 - 1074⟩

/--
The fewest digits that stand for a positive magnitude, and of those the nearest.
-/
def shortest (tie : Tie) (m : Nat) : Scientific :=
  let found := coarsest tie m ((digits (scaled m)).length - 1)
  .ofMultiple found.1 found.2

end Metering.Double
