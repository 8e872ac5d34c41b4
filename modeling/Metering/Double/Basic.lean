import Metering.Natural

/-!
This module contains binary floating-point numbers of 64 bits.

A number is its bit pattern: a sign and a magnitude of 63 bits. Magnitudes are ordered as the
numbers they stand for, and a finite one stands for a multiple of `2 ^ -1074`, the least positive
number, so that all that follows can be said about natural numbers.
-/

namespace Metering

/--
A floating-point number, as its bits. Two numbers are equal here if all of their bits are.
-/
@[ext]
structure Double where
  bits : UInt64
  deriving DecidableEq

namespace Double

/--
The magnitude of the infinities. Magnitudes above it are not numbers.
-/
def infinite : Nat := 0x7FF * 2 ^ 52

def negative (x : Double) : Bool :=
  2 ^ 63 ≤ x.bits.toNat

def magnitude (x : Double) : Nat :=
  x.bits.toNat % 2 ^ 63

def ofMagnitude (negative : Bool) (m : Nat) : Double :=
  ⟨UInt64.ofNat (if negative then 2 ^ 63 + m else m)⟩

def isNaN (x : Double) : Bool :=
  infinite < x.magnitude

def isFinite (x : Double) : Bool :=
  x.magnitude < infinite

def nan : Double := ⟨0x7FF8000000000000⟩

def infinity : Double := ofMagnitude false infinite

def negativeInfinity : Double := ofMagnitude true infinite

instance : OfNat Double 0 := ⟨⟨0⟩⟩

/--
How many times the least positive number goes into a magnitude.
-/
def units (m : Nat) : Nat :=
  if m / 2 ^ 52 = 0 then m else (2 ^ 52 + m % 2 ^ 52) * 2 ^ (m / 2 ^ 52 - 1)

/--
Whether two numbers are equal as numbers: the zeros are, and what is not a number equals nothing.
-/
def agrees (x y : Double) : Bool :=
  !x.isNaN && !y.isNaN && (x = y || (x.magnitude = 0 && y.magnitude = 0))

theorem negative_ofMagnitude {b : Bool} {m : Nat} (h : m < 2 ^ 63) :
    (ofMagnitude b m).negative = b := by
  simp only [ofMagnitude, negative, UInt64.toNat_ofNat']
  cases b <;> simp <;> omega

theorem magnitude_ofMagnitude {b : Bool} {m : Nat} (h : m < 2 ^ 63) :
    (ofMagnitude b m).magnitude = m := by
  simp only [ofMagnitude, magnitude, UInt64.toNat_ofNat']
  cases b <;> simp <;> omega

theorem ofMagnitude_magnitude (x : Double) : ofMagnitude x.negative x.magnitude = x := by
  have hlt := x.bits.toNat_lt
  apply Double.ext
  apply UInt64.toNat_inj.1
  simp only [ofMagnitude, negative, magnitude, UInt64.toNat_ofNat', decide_eq_true_eq]
  split <;> omega

end Double

end Metering
