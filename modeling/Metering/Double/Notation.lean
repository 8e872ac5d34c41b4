import Metering.Decimal.Numeral
import Metering.Double.Shortest

/-!
This module contains the ways in which floating-point numbers are written.
-/

namespace Metering.Double

open Metering.Decimal

structure Style where
  tie : Tie
  /-- The decimal exponents with which a number is written without an exponent. -/
  positional : Int → Bool
  /-- How many decimals there are at least if no exponent is written. -/
  decimals : Nat
  mark : Numeral.Mark

namespace Style

/--
The text of values, as sinks are sent it: never with an exponent, and whole numbers without a
fraction.
-/
def plain : Style where
  tie := .up
  positional := fun _ => true
  decimals := 0
  mark := .bare

/--
The text of values in messages: an exponent from `1e16` up and below `0.0001`, and otherwise at
least one decimal.
-/
def message : Style where
  tie := .up
  positional := fun e => -4 ≤ e && e ≤ 15
  decimals := 1
  mark := .bare

/--
The numbers of snapshots: an exponent with its sign from `1e+16` up and below `0.00001`, and
otherwise at least one decimal.
-/
def snapshot : Style where
  tie := .even
  positional := fun e => -5 ≤ e && e ≤ 15
  decimals := 1
  mark := .plus

end Style

/--
The shortest digits of a magnitude. Zero has one digit.
-/
def scientific (tie : Tie) (m : Nat) : Scientific :=
  if m = 0 then ⟨[0], 0⟩ else shortest tie m

def padFraction (decimals : Nat) (ds : List Digit) : List Digit :=
  ds ++ List.replicate (decimals - ds.length) 0

def Scientific.numeral (style : Style) (negative : Bool) (x : Scientific) : Numeral :=
  if style.positional x.exponent then
    if 0 ≤ x.exponent then
      let size := x.exponent.toNat + 1
      ⟨negative, x.digits.take size ++ List.replicate (size - x.digits.length) 0,
        padFraction style.decimals (x.digits.drop size), none⟩
    else
      ⟨negative, [0],
        padFraction style.decimals (List.replicate ((-x.exponent).toNat - 1) 0 ++ x.digits), none⟩
  else
    ⟨negative, x.digits.take 1, x.digits.drop 1, some x.exponent⟩

def numeral (style : Style) (x : Double) : Numeral :=
  (scientific style.tie x.magnitude).numeral style x.negative

/--
The name of a number that is not finite. No digits stand for it.
-/
def nonFiniteName (x : Double) : String :=
  if x.isNaN then "NaN" else if x.negative then "-inf" else "inf"

def ofNonFiniteName? (s : String) : Option Double :=
  if s = "NaN" then some nan
  else if s = "inf" then some infinity
  else if s = "-inf" then some negativeInfinity
  else none

def text (style : Style) (x : Double) : String :=
  if x.isFinite then String.ofList ((x.numeral style).chars style.mark) else x.nonFiniteName

end Metering.Double
