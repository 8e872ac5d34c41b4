import Metering.Decimal.Numeral

/-!
This module contains the passage between the integers of 64 bits, in which counters, gauges and
points in time are kept, and all integers.
-/

namespace Metering.Integer

def ofInt? (i : Int) : Option Int64 :=
  if -2 ^ 63 ≤ i ∧ i < 2 ^ 63 then some (Int64.ofInt i) else none

/--
The 64-bit integer nearest to `i`.
-/
def clamp (i : Int) : Int64 :=
  Int64.ofIntClamp i

def text (n : Int64) : String :=
  String.ofList ((Decimal.Numeral.ofInt n.toInt).chars .bare)

theorem ofInt?_toInt (n : Int64) : ofInt? n.toInt = some n := by
  have hlo := n.le_toInt
  have hhi := n.toInt_lt
  rw [ofInt?, if_pos ⟨hlo, hhi⟩, Int64.ofInt_toInt]

theorem toInt_of_ofInt? {i : Int} {n : Int64} (h : ofInt? i = some n) : n.toInt = i := by
  simp only [ofInt?] at h
  split at h
  . rename_i hrange
    cases h
    exact Int64.toInt_ofInt_of_le hrange.1 hrange.2
  . cases h

theorem ofInt?_eq_some_iff {i : Int} {n : Int64} : ofInt? i = some n ↔ i = n.toInt := by
  constructor
  . intro h
    exact (toInt_of_ofInt? h).symm
  . rintro rfl
    apply ofInt?_toInt

theorem toInt_clamp (i : Int) : (clamp i).toInt = max (-2 ^ 63) (min i (2 ^ 63 - 1)) := by
  have hmin : Int64.minValue.toInt = -2 ^ 63 := by decide
  have hmax : Int64.maxValue.toInt = 2 ^ 63 - 1 := by decide
  simp only [clamp, Int64.ofIntClamp]
  split
  . split
    . rw [Int64.toInt_ofIntLE]
      omega
    . omega
  . omega

end Metering.Integer
