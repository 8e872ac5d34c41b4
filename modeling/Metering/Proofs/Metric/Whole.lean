import Metering.Proofs.Decimal.Digits
import Metering.Proofs.Decimal.Numeral
import Metering.Proofs.Double.Integer
import Metering.Proofs.Metric.Holding

/-!
This module contains what a double gauge stores for a whole number, whether it is written with a
point or without.

Without a point a number that has 64 bits is read as an integer first, which is then rounded. With a
point the digits are rounded at once. Both are the same rounding.
-/

namespace Metering

namespace Decimal.Numeral

/--
Whether a numeral is written with its whole digits alone.
-/
structure Whole (n : Numeral) : Prop where
  wellFormed : n.WellFormed
  fraction : n.fraction = []
  exponent : n.exponent = none

def withPoint (n : Numeral) : Numeral :=
  { n with fraction := [0] }

/--
The integer that a whole numeral stands for. The sign of a zero is lost.
-/
def integer (n : Numeral) : Int :=
  Double.signed n.negative n.coefficient

variable {n : Numeral}

theorem Whole.chars_withPoint (h : n.Whole) (mark : Mark) :
    n.withPoint.chars mark = n.chars mark ++ ['.', '0'] := by
  unfold chars withPoint
  rw [h.fraction, h.exponent]
  simp [Digit.char]

theorem Whole.coefficient_eq (h : n.Whole) : n.coefficient = value n.whole := by
  unfold coefficient
  rw [h.fraction, List.append_nil]

theorem Whole.toInt?_eq (h : n.Whole) :
    n.toInt? = if n.negative ∧ n.coefficient = 0 then none else some n.integer := by
  unfold toInt? integer Double.signed
  rw [h.fraction, h.exponent]
  cases n.negative <;> simp

theorem toInt?_withPoint (n : Numeral) : n.withPoint.toInt? = none := by
  unfold toInt? withPoint
  rw [if_pos (.inl (List.cons_ne_nil 0 []))]

end Decimal.Numeral

namespace Double

open Decimal

theorem pow_le_value {d : Digit} (hd : d ≠ 0) (ds : List Digit) :
    10 ^ ds.length ≤ value (d :: ds) := by
  have hpos : 0 < d.val := Nat.pos_of_ne_zero fun h => hd (Fin.ext h)
  have hmul : 1 * 10 ^ ds.length ≤ d.val * 10 ^ ds.length := Nat.mul_le_mul_right _ hpos
  rw [value_cons]
  omega

theorem nearest_eq_infinite {c : Nat} (h : 10 ^ digitLimit ≤ c) : nearest c 1 = infinite := by
  rw [nearest_eq_infinite_iff]
  have hle : 2 ^ 1024 - 2 ^ 970 ≤ 10 ^ digitLimit := by decide +kernel
  omega

theorem nearest_zero : nearest 0 1 = 0 := by
  unfold nearest
  simp only [Nat.zero_mul]
  decide

/--
Powers of ten are only left out where they make no difference.
-/
theorem nearestDecimal_eq {c p : Nat} (h : p ≤ 400 ∨ 10 ^ digitLimit ≤ c) (size : Nat) :
    nearestDecimal c size p = nearest (c * 10 ^ p) 1 := by
  unfold nearestDecimal
  split
  . next hc => rw [hc, Nat.zero_mul, nearest_zero]
  . split
    . rw [nearest_eq_infinite]
      have hle := Nat.le_mul_of_pos_right c (Nat.pow_pos (n := p) (show 0 < 10 by decide))
      omega
    . rw [if_neg (by omega), if_pos (by omega), Int.toNat_natCast]

theorem nearestDigits_eq {ds : List Digit} (hds : ∀ d ∈ ds.head?, d ≠ 0) :
    nearestDigits ds 0 = nearest (value ds) 1 := by
  unfold nearestDigits
  split
  . have hsame := nearestDecimal_eq (c := value ds) (.inl (Nat.zero_le 400)) ds.length
    rwa [Nat.pow_zero, Nat.mul_one] at hsame
  . next hlong =>
    -- Digits past the limit are those of a number that is too large anyway.
    cases ds with
    | nil => exact absurd (Nat.zero_le _) hlong
    | cons d ds =>
      have hd := hds d rfl
      have hlength : digitLimit ≤ ds.length := by
        rw [List.length_cons] at hlong
        omega
      have hall : 10 ^ digitLimit ≤ value (d :: ds) :=
        Nat.le_trans (Nat.pow_le_pow_right (by decide) hlength) (pow_le_value hd ds)
      have hkept : 10 ^ digitLimit ≤ value ((d :: ds).take digitLimit ++ [1]) := by
        have htake : (d :: ds).take digitLimit ++ [1]
            = d :: (ds.take (digitLimit - 1) ++ [1]) := rfl
        have hle := pow_le_value hd (ds.take (digitLimit - 1) ++ [1])
        rw [List.length_append, List.length_take_of_le (by omega), List.length_singleton,
          Nat.sub_add_cancel (by decide)] at hle
        rw [htake]
        exact hle
      rw [Int.zero_add, nearestDecimal_eq (.inr hkept), nearest_eq_infinite hall,
        nearest_eq_infinite]
      exact Nat.le_trans hkept (Nat.le_mul_of_pos_right _ (Nat.pow_pos (by decide)))

theorem value_dropWhile (ds : List Digit) : value (ds.dropWhile (· = 0)) = value ds := by
  induction ds with
  | nil => rfl
  | cons d ds ih =>
    rw [List.dropWhile_cons]
    split
    . next hd =>
      rw [ih, value_cons, of_decide_eq_true hd, Fin.val_zero, Nat.zero_mul, Nat.zero_add]
    . rfl

theorem ofNumeral?_eq {n : Numeral} (hfraction : dropZeros n.fraction = [])
    (hexponent : n.exponent = none) :
    ofNumeral? n = if nearest (value n.whole) 1 = infinite then none
      else some (ofMagnitude n.negative (nearest (value n.whole) 1)) := by
  have hhead : ∀ d ∈ (n.whole.dropWhile (· = 0)).head?, d ≠ 0 := by
    intro d hd
    have hnot := List.head?_dropWhile_not (· = (0 : Digit)) n.whole
    rw [hd] at hnot
    simpa using hnot
  unfold ofNumeral?
  rw [hfraction, hexponent]
  dsimp only
  rw [List.append_nil, Option.getD_none, List.length_nil, Int.ofNat_zero, Int.sub_zero,
    nearestDigits_eq hhead, value_dropWhile]

/--
The number nearest to a whole numeral, with its sign.
-/
def ofWhole (n : Numeral) : Double :=
  ofMagnitude n.negative (nearest n.coefficient 1)

variable {n : Numeral}

theorem nearestTo_ofWhole (hlt : n.coefficient < 2 ^ 1024 - 2 ^ 970) :
    (ofWhole n).NearestTo n.integer :=
  nearestTo_nearest hlt n.negative

theorem negative_ofWhole : (ofWhole n).negative = n.negative := by
  apply negative_ofMagnitude
  have hle : nearest n.coefficient 1 ≤ infinite := Nat.min_le_left _ _
  have hinfinite : infinite < 2 ^ 63 := by decide
  omega

theorem ofInt_integer (h : ¬(n.negative ∧ n.coefficient = 0)) : ofInt n.integer = ofWhole n := by
  unfold ofInt ofWhole Numeral.integer signed
  cases hnegative : n.negative with
  | false =>
    simp only [Bool.false_eq_true, if_false]
    rw [decide_eq_false (by omega), Int.natAbs_natCast]
  | true =>
    simp only [hnegative, true_and] at h
    simp only [if_true]
    rw [decide_eq_true (by omega), Int.natAbs_neg, Int.natAbs_natCast]

end Double

namespace Decimal.Numeral

variable {n : Numeral}

theorem Whole.ofNumeral?_eq (h : n.Whole) :
    Double.ofNumeral? n = if 2 ^ 1024 - 2 ^ 970 ≤ n.coefficient then none
      else some (Double.ofWhole n) := by
  have hfraction : dropZeros n.fraction = [] := by
    rw [h.fraction]
    rfl
  rw [Double.ofNumeral?_eq hfraction h.exponent, ← h.coefficient_eq]
  simp only [Double.nearest_eq_infinite_iff]
  rfl

theorem Whole.ofNumeral?_withPoint (h : n.Whole) :
    Double.ofNumeral? n.withPoint = Double.ofNumeral? n := by
  have hfraction : dropZeros n.fraction = [] := by
    rw [h.fraction]
    rfl
  have hpoint := Double.ofNumeral?_eq (n := n.withPoint) rfl h.exponent
  rw [hpoint, Double.ofNumeral?_eq hfraction h.exponent]
  rfl

end Decimal.Numeral

namespace Value

open Decimal

variable {n : Numeral}

theorem ofNumeral?_withPoint (h : n.Whole) :
    ofNumeral? n.withPoint = (Double.ofNumeral? n).map double := by
  unfold ofNumeral?
  rw [Numeral.toInt?_withPoint, h.ofNumeral?_withPoint]
  rfl

/--
Either the number is read as a double at once, or as an integer that is then rounded to it.
-/
theorem stores_of_whole (h : n.Whole) (hlt : n.coefficient < 2 ^ 1024 - 2 ^ 970) :
    ∃ v, ofNumeral? n = some v ∧ Kind.doubleGauge.Stores v (.double (Double.ofWhole n)) := by
  unfold ofNumeral?
  rw [h.toInt?_eq, h.ofNumeral?_eq, if_neg (Nat.not_le_of_lt hlt)]
  split
  . next i hi =>
    refine ⟨_, rfl, ?_⟩
    obtain ⟨j, hj, hij⟩ := Option.bind_eq_some_iff.1 hi
    split at hj
    . cases hj
    . next hzero =>
      cases hj
      rw [← Double.ofInt_integer hzero, ← Integer.toInt_of_ofInt? hij]
      apply Kind.Stores.whole
  . exact ⟨_, rfl, .doubleGauge _⟩

theorem ofNumeral?_of_le (h : n.Whole) (hle : 2 ^ 1024 - 2 ^ 970 ≤ n.coefficient) :
    ofNumeral? n = none := by
  unfold ofNumeral?
  rw [h.ofNumeral?_eq, if_pos hle]
  split
  . next i hi =>
    -- No integer of 64 bits is as far from zero.
    obtain ⟨j, hj, hij⟩ := Option.bind_eq_some_iff.1 hi
    rw [h.toInt?_eq] at hj
    split at hj
    . cases hj
    . cases hj
      have hi := Integer.toInt_of_ofInt? hij
      have hlower := i.le_toInt
      have hupper := i.toInt_lt
      unfold Numeral.integer Double.signed at hi
      split at hi <;> omega
  . rfl

end Value

end Metering
