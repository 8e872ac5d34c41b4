import Metering.Proofs.Double.Shortest

/-!
This module contains what integers are rounded to: the nearest of all finite numbers, and of two
nearest ones the even one, unless the integer is too far from zero for any of them.
-/

namespace Metering.Double

def signed (negative : Bool) (n : Nat) : Int :=
  if negative then -n else n

theorem signed_mul_two_pow (negative : Bool) (n k : Nat) :
    signed negative n * 2 ^ k = signed negative (n * 2 ^ k) := by
  have hcast : ((n * 2 ^ k : Nat) : Int) = n * 2 ^ k := by
    rw [Int.natCast_mul, Int.natCast_pow]
    rfl
  unfold signed
  rw [hcast]
  split
  . apply Int.neg_mul
  . rfl

/--
The number that a finite double stands for, as a multiple of the least positive number.
-/
def count (x : Double) : Int :=
  signed x.negative (units x.magnitude)

/--
Whether a number is the nearest to an integer of all finite numbers, and the even one if another is
as near. The sign of a zero is left open.
-/
structure NearestTo (x : Double) (i : Int) : Prop where
  finite : x.isFinite
  nearest : ∀ y : Double, y.isFinite →
    (x.count - i * 2 ^ 1074).natAbs ≤ (y.count - i * 2 ^ 1074).natAbs
  even : ∀ y : Double, y.isFinite → y.count ≠ x.count →
    (x.count - i * 2 ^ 1074).natAbs = (y.count - i * 2 ^ 1074).natAbs → x.magnitude % 2 = 0

theorem units_lt_units {m n : Nat} (h : m < n) : units m < units n :=
  Nat.lt_of_lt_of_le (units_lt_units_succ m) (units_mono h)

theorem count_ofMagnitude {m : Nat} (h : m < infinite) (b : Bool) :
    (ofMagnitude b m).isFinite ∧ (ofMagnitude b m).magnitude = m
      ∧ (ofMagnitude b m).count = signed b (units m) := by
  have hlt : m < 2 ^ 63 := by
    have hinfinite : infinite < 2 ^ 63 := by decide
    omega
  unfold isFinite count
  rw [negative_ofMagnitude hlt, magnitude_ofMagnitude hlt]
  exact ⟨decide_eq_true h, rfl, rfl⟩

/--
Two numbers that are both the nearest would both be even, and one between them would be nearer.
-/
theorem NearestTo.not_magnitude_lt {x y : Double} {i : Int} (hx : x.NearestTo i)
    (hy : y.NearestTo i) (hsign : x.negative = y.negative) : ¬x.magnitude < y.magnitude := by
  intro hlt
  have hyfinite : y.magnitude < infinite := of_decide_eq_true hy.finite
  obtain ⟨hfinite, -, hcount⟩ := count_ofMagnitude (m := x.magnitude + 1) (by omega) x.negative
  have hlower : units x.magnitude < units (x.magnitude + 1) := units_lt_units_succ x.magnitude
  have hle := hx.nearest y hy.finite
  have hge := hy.nearest x hx.finite
  have hne : y.count ≠ x.count := by
    have hunits := units_lt_units hlt
    unfold count signed
    rw [hsign]
    split <;> omega
  have hxeven := hx.even y hy.finite hne (by omega)
  have hyeven := hy.even x hx.finite hne.symm (by omega)
  have hupper : units (x.magnitude + 1) < units y.magnitude := units_lt_units (by omega)
  have hnearer := hx.nearest _ hfinite
  have hbetween : x.count < signed x.negative (units (x.magnitude + 1))
        ∧ signed x.negative (units (x.magnitude + 1)) < y.count
      ∨ y.count < signed x.negative (units (x.magnitude + 1))
        ∧ signed x.negative (units (x.magnitude + 1)) < x.count := by
    unfold count signed
    rw [hsign]
    split <;> omega
  rw [hcount] at hnearer
  omega

/--
There is at most one nearest number of either sign.
-/
theorem NearestTo.unique {x y : Double} {i : Int} (hx : x.NearestTo i) (hy : y.NearestTo i)
    (hsign : x.negative = y.negative) : x = y := by
  have hle := hx.not_magnitude_lt hy hsign
  have hge := hy.not_magnitude_lt hx hsign.symm
  have hmagnitude : x.magnitude = y.magnitude := by omega
  rw [← ofMagnitude_magnitude x, hsign, hmagnitude, ofMagnitude_magnitude]

/-!
## Where fractions are rounded to
-/

theorem exists_units_le (u : Nat) : ∃ m, units m ≤ u ∧ u < units (m + 1) := by
  induction u with
  | zero => exact ⟨0, by decide, by decide⟩
  | succ u ih =>
    obtain ⟨m, hle, hlt⟩ := ih
    by_cases hnext : u + 1 < units (m + 1)
    . exact ⟨m, by omega, hnext⟩
    . have hsucc := units_lt_units_succ (m + 1)
      exact ⟨m + 1, by omega, by omega⟩

theorem exists_roundsTo (u : Nat) : ∃ m, RoundsTo m u 1 := by
  obtain ⟨m, hle, hlt⟩ := exists_units_le u
  have hbefore : units (m - 1) ≤ units m := units_mono (by omega)
  have hodd : m % 2 = 1 → units (m - 1) < units m := by
    intro hodd
    have hsucc := units_lt_units_succ (m - 1)
    rwa [Nat.sub_add_cancel (by omega)] at hsucc
  have hafter := units_lt_units_succ (m + 1)
  by_cases hup : units m + units (m + 1) < 2 * u ∨ units m + units (m + 1) = 2 * u ∧ m % 2 = 1
  . refine ⟨m + 1, ?_, ?_, ?_⟩
    . rw [Nat.add_sub_cancel]
      omega
    . omega
    . rw [Nat.add_sub_cancel]
      omega
  . refine ⟨m, ?_, ?_, ?_⟩
    . omega
    . omega
    . omega

theorem roundsTo_roundUnits (u : Nat) : RoundsTo (roundUnits u 1) u 1 := by
  obtain ⟨m, h⟩ := exists_roundsTo u
  by_cases hpos : 0 < m
  . rwa [h.roundUnits hpos Nat.one_pos]
  . have hm : m = 0 := by omega
    subst hm
    have hone : units (0 + 1) = 1 := rfl
    have hzero : units 0 = 0 := rfl
    have hu : u = 0 := by
      have hupper := h.upper
      omega
    subst hu
    exact h

variable {m u : Nat}

theorem units_trichotomy (j m : Nat) :
    units j ≤ units (m - 1) ∧ units (m - 1) ≤ units m ∨ j = m
      ∨ units m < units (m + 1) ∧ units (m + 1) ≤ units j := by
  rcases Nat.lt_trichotomy j m with hlt | heq | hgt
  . exact .inl ⟨units_mono (by omega), units_mono (by omega)⟩
  . exact .inr (.inl heq)
  . exact .inr (.inr ⟨units_lt_units_succ m, units_mono hgt⟩)

theorem RoundsTo.distance_le (h : RoundsTo m u 1) (j : Nat) :
    ((units m : Int) - u).natAbs ≤ ((units j : Int) - u).natAbs := by
  obtain ⟨hlower, hupper, -⟩ := h
  obtain ⟨hj, hm⟩ | rfl | ⟨hm, hj⟩ := units_trichotomy j m
  . omega
  . apply Nat.le_refl
  . omega

theorem RoundsTo.even_of_distance_eq (h : RoundsTo m u 1) {j : Nat} (hne : units j ≠ units m)
    (heq : ((units m : Int) - u).natAbs = ((units j : Int) - u).natAbs) : m % 2 = 0 := by
  obtain ⟨hlower, hupper, hstrict⟩ := h
  apply Decidable.byContradiction
  intro hodd
  have hstrict := hstrict (by omega)
  obtain ⟨hj, hm⟩ | rfl | ⟨hm, hj⟩ := units_trichotomy j m
  . omega
  . exact hne rfl
  . omega

/-!
## Integers
-/

theorem distance_signed (b : Bool) (j : Nat) :
    (signed b (units j) - signed b u).natAbs = ((units j : Int) - u).natAbs := by
  cases b with
  | false => rfl
  | true =>
    show (-(units j : Int) - -(u : Int)).natAbs = _
    omega

/--
A number of the other sign is no nearer than zero is.
-/
theorem distance_signed_of_ne {b c : Bool} (h : b ≠ c) (j : Nat) :
    (signed c (units j) - signed b u).natAbs = u + units j := by
  have hc : c = !b := Bool.eq_not_of_ne h.symm
  subst hc
  cases b with
  | false =>
    show (-(units j : Int) - (u : Int)).natAbs = _
    omega
  | true =>
    show ((units j : Int) - -(u : Int)).natAbs = _
    omega

theorem RoundsTo.nearestTo {c : Nat} (h : RoundsTo m (c * 2 ^ 1074) 1) (hm : m < infinite)
    (b : Bool) : NearestTo (ofMagnitude b m) (signed b c) := by
  obtain ⟨hfinite, hmagnitude, hcount⟩ := count_ofMagnitude hm b
  have hzero := h.distance_le 0
  have hunits : units 0 = 0 := rfl
  constructor
  . exact hfinite
  . intro y _
    rw [hcount, signed_mul_two_pow, distance_signed]
    unfold count
    by_cases hsign : b = y.negative
    . rw [← hsign, distance_signed]
      apply h.distance_le
    . rw [distance_signed_of_ne hsign]
      omega
  . intro y _ hne heq
    rw [hmagnitude]
    rw [hcount, signed_mul_two_pow, distance_signed] at heq
    rw [hcount] at hne
    unfold count at hne heq
    by_cases hsign : b = y.negative
    . rw [← hsign, distance_signed] at heq
      rw [← hsign] at hne
      apply h.even_of_distance_eq ?_ heq
      intro hunits
      exact hne (by rw [hunits])
    . rw [distance_signed_of_ne hsign] at heq
      apply h.even_of_distance_eq (j := 0)
      . intro hm
        have hy : units y.magnitude = 0 := by omega
        rw [hy, ← hm, hunits] at hne
        apply hne
        cases b <;> cases y.negative <;> rfl
      . omega

theorem infinite_le_iff (h : RoundsTo m u 1) :
    infinite ≤ m ↔ units (infinite - 1) + units infinite ≤ 2 * u := by
  obtain ⟨hlower, hupper, hstrict⟩ := h
  constructor
  . intro hle
    have hbefore : units (infinite - 1) ≤ units (m - 1) := units_mono (by omega)
    have hself : units infinite ≤ units m := units_mono hle
    omega
  . intro hle
    apply Nat.le_of_not_lt
    intro hlt
    have hself : units m ≤ units (infinite - 1) := units_mono (by omega)
    have hafter : units (m + 1) ≤ units infinite := units_mono (by omega)
    -- Of the two numbers around the midpoint, the infinite one is even.
    have heq : m = infinite - 1 := by
      apply Decidable.byContradiction
      intro hne
      have hbefore : units (m + 1) ≤ units (infinite - 1) := units_mono (by omega)
      have hlast := units_lt_units_succ (infinite - 1)
      rw [Nat.sub_add_cancel (by decide)] at hlast
      omega
    have hodd : (infinite - 1) % 2 = 1 := by decide
    have hstrict := (hstrict (heq ▸ hodd)).2
    omega

theorem nearest_eq_infinite_iff {c : Nat} : nearest c 1 = infinite ↔ 2 ^ 1024 - 2 ^ 970 ≤ c := by
  have hlast : units (infinite - 1) = (2 ^ 53 - 1) * 2 ^ 2045 := by
    have hplace : infinite - 1 = 2045 * 2 ^ 52 + (2 ^ 53 - 1) := by decide
    rw [hplace, units_significand (by omega) (by omega)]
  have hiff := infinite_le_iff (roundsTo_roundUnits (c * 2 ^ 1074))
  have hmin : nearest c 1 = infinite ↔ infinite ≤ roundUnits (c * 2 ^ 1074) 1 := by
    rw [nearest_eq]
    omega
  rw [hmin, hiff, hlast, units_infinite]
  omega

theorem nearestTo_nearest {c : Nat} (h : c < 2 ^ 1024 - 2 ^ 970) (b : Bool) :
    NearestTo (ofMagnitude b (nearest c 1)) (signed b c) := by
  have hround := roundsTo_roundUnits (c * 2 ^ 1074)
  have hne := mt nearest_eq_infinite_iff.1 (Nat.not_le_of_lt h)
  rw [nearest_eq] at hne ⊢
  rw [Nat.min_eq_right (by omega)]
  apply hround.nearestTo
  omega

end Metering.Double
