import Metering.Double.Nearest

/-!
This module contains the fractions that are rounded to a magnitude. They are those between the
midpoints to the magnitudes before and after it, with the midpoints if the magnitude is even.
-/

namespace Metering.Double

/-!
## Units
-/

theorem units_of_le {m : Nat} (h : m ≤ 2 ^ 53) : units m = m := by
  unfold units
  split
  . rfl
  . by_cases heq : m = 2 ^ 53
    . subst heq
      rfl
    . have hone : m / 2 ^ 52 = 1 := by omega
      rw [hone]
      omega

/--
The exponent may be one too small for a significand that is a power of two, which is how
significands that were rounded up are counted.
-/
theorem units_significand {e k : Nat} (hlo : 2 ^ 52 ≤ k) (hhi : k ≤ 2 ^ 53) :
    units (e * 2 ^ 52 + k) = k * 2 ^ e := by
  unfold units
  -- A significand of `2 ^ 53` is that of `2 ^ 52` with the next exponent.
  by_cases heq : k = 2 ^ 53
  . have hdiv : (e * 2 ^ 52 + k) / 2 ^ 52 = e + 2 := by omega
    have hmod : (e * 2 ^ 52 + k) % 2 ^ 52 = 0 := by omega
    rw [if_neg (by omega), hdiv, hmod, heq, Nat.add_zero, Nat.add_sub_cancel (m := 1), Nat.pow_succ]
    omega
  . have hdiv : (e * 2 ^ 52 + k) / 2 ^ 52 = e + 1 := by omega
    have hmod : (e * 2 ^ 52 + k) % 2 ^ 52 = k - 2 ^ 52 := by omega
    rw [if_neg (by omega), hdiv, hmod, Nat.add_sub_cancel, Nat.add_sub_cancel' hlo]

/-!
## Rounding
-/

theorem divEven_eq {n d k : Nat} (hd : 0 < d) (hlo : 2 * (k * d) ≤ 2 * n + d)
    (hhi : 2 * n ≤ 2 * (k * d) + d)
    (hodd : k % 2 = 1 → 2 * (k * d) < 2 * n + d ∧ 2 * n < 2 * (k * d) + d) : divEven n d = k := by
  have hlt := Nat.mod_lt n hd
  have hn : n / d * d + n % d = n := by
    rw [Nat.mul_comm]
    apply Nat.div_add_mod
  -- The quotient is the nearest integer or the one before it.
  have hle : n / d ≤ k := by
    apply Nat.le_of_not_lt
    intro hgt
    have hmul : (k + 1) * d ≤ n / d * d := Nat.mul_le_mul_right d (by omega)
    rw [Nat.add_mul] at hmul
    omega
  have hge : k ≤ n / d + 1 := by
    apply Nat.le_of_not_lt
    intro hgt
    have hmul : (n / d + 2) * d ≤ k * d := Nat.mul_le_mul_right d (by omega)
    rw [Nat.add_mul] at hmul
    omega
  unfold divEven
  dsimp only
  by_cases hk : k = n / d
  . rw [← hk] at hn ⊢
    split
    . rfl
    . split <;> omega
  . have hk : k = n / d + 1 := by omega
    have hmul : k * d = n / d * d + d := by rw [hk, Nat.add_mul, Nat.one_mul]
    split
    . omega
    . split <;> omega

structure RoundsTo (m u d : Nat) : Prop where
  lower : (units (m - 1) + units m) * d ≤ 2 * u
  upper : 2 * u ≤ (units m + units (m + 1)) * d
  strict : m % 2 = 1 →
    (units (m - 1) + units m) * d < 2 * u ∧ 2 * u < (units m + units (m + 1)) * d

theorem shift_eq {u d s : Nat} (hd : 0 < d) (hlo : 2 ^ 52 * (2 ^ s * d) ≤ u)
    (hhi : u < 2 ^ 53 * (2 ^ s * d)) : Nat.log2 (u / d) - 52 = s := by
  rw [← Nat.mul_assoc] at hlo hhi
  have hle : 2 ^ 52 * 2 ^ s ≤ u / d := (Nat.le_div_iff_mul_le hd).2 hlo
  have hlt : u / d < 2 ^ 53 * 2 ^ s := (Nat.div_lt_iff_lt_mul hd).2 hhi
  have hpos : 0 < 2 ^ s := Nat.two_pow_pos s
  have hlog : Nat.log2 (u / d) = 52 + s := by
    rw [Nat.log2_eq_iff (by omega), Nat.pow_succ, Nat.pow_add]
    omega
  omega

theorem shift_eq_zero {u d : Nat} (hd : 0 < d) (hhi : u < 2 ^ 53 * d) :
    Nat.log2 (u / d) - 52 = 0 := by
  have hlt : u / d < 2 ^ 53 := (Nat.div_lt_iff_lt_mul hd).2 hhi
  by_cases hzero : u / d = 0
  . rw [hzero]
    rfl
  . have hlog : Nat.log2 (u / d) < 53 := (Nat.log2_lt hzero).2 hlt
    omega

def roundUnits (u d : Nat) : Nat :=
  let shift := Nat.log2 (u / d) - 52
  shift * 2 ^ 52 + divEven u (d * 2 ^ shift)

theorem nearest_eq (n d : Nat) : nearest n d = min infinite (roundUnits (n * 2 ^ 1074) d) := rfl

theorem roundUnits_eq {u d s k : Nat} (hd : 0 < d) (hshift : Nat.log2 (u / d) - 52 = s)
    (hlo : 2 * (k * (2 ^ s * d)) ≤ 2 * u + 2 ^ s * d)
    (hhi : 2 * u ≤ 2 * (k * (2 ^ s * d)) + 2 ^ s * d)
    (hodd : k % 2 = 1 →
      2 * (k * (2 ^ s * d)) < 2 * u + 2 ^ s * d ∧ 2 * u < 2 * (k * (2 ^ s * d)) + 2 ^ s * d) :
    roundUnits u d = s * 2 ^ 52 + k := by
  unfold roundUnits
  dsimp only
  rw [hshift, Nat.mul_comm d, divEven_eq (Nat.mul_pos (Nat.two_pow_pos s) hd) hlo hhi hodd]

theorem RoundsTo.roundUnits_of_lt {m u d : Nat} (h : RoundsTo m u d) (hpos : 0 < m) (hd : 0 < d)
    (hm : m < 2 ^ 53) : roundUnits u d = m := by
  obtain ⟨hlower, hupper, hstrict⟩ := h
  have hle : d ≤ m * d := Nat.le_mul_of_pos_left d hpos
  have hmul : m * d < 2 ^ 53 * d := Nat.mul_lt_mul_of_pos_right hm hd
  have hnext : m * d + d ≤ 2 ^ 53 * d := by
    rw [← Nat.succ_mul]
    apply Nat.mul_le_mul_right d hm
  have hbefore : units (m - 1) = m - 1 := units_of_le (by omega)
  have hself : units m = m := units_of_le (by omega)
  have hafter : units (m + 1) = m + 1 := units_of_le hm
  simp only [hbefore, hself, hafter, Nat.add_mul, Nat.sub_mul, Nat.one_mul]
    at hlower hupper hstrict
  have hround : roundUnits u d = 0 * 2 ^ 52 + m := by
    apply roundUnits_eq hd
    . apply shift_eq_zero hd
      omega
    . rw [Nat.pow_zero, Nat.one_mul]
      omega
    . rw [Nat.pow_zero, Nat.one_mul]
      omega
    . rw [Nat.pow_zero, Nat.one_mul]
      omega
  omega

theorem RoundsTo.roundUnits_of_gt {e k u d : Nat} (h : RoundsTo (e * 2 ^ 52 + k) u d)
    (hd : 0 < d) (hlo : 2 ^ 52 < k) (hhi : k < 2 ^ 53) : roundUnits u d = e * 2 ^ 52 + k := by
  obtain ⟨hlower, hupper, hstrict⟩ := h
  have hbefore : units (e * 2 ^ 52 + k - 1) = (k - 1) * 2 ^ e := by
    rw [Nat.add_sub_assoc (by omega), units_significand (by omega) (by omega)]
  have hself : units (e * 2 ^ 52 + k) = k * 2 ^ e := units_significand (by omega) (by omega)
  have hafter : units (e * 2 ^ 52 + k + 1) = (k + 1) * 2 ^ e := by
    rw [Nat.add_assoc, units_significand (by omega) (by omega)]
  simp only [hbefore, hself, hafter, Nat.add_mul, Nat.sub_mul, Nat.one_mul, Nat.mul_assoc]
    at hlower hupper hstrict
  have hgrid : 0 < 2 ^ e * d := Nat.mul_pos (Nat.two_pow_pos e) hd
  have hleast : (2 ^ 52 + 1) * (2 ^ e * d) ≤ k * (2 ^ e * d) := Nat.mul_le_mul_right _ hlo
  have hgreatest : (k + 1) * (2 ^ e * d) ≤ 2 ^ 53 * (2 ^ e * d) := Nat.mul_le_mul_right _ hhi
  rw [Nat.add_mul] at hleast hgreatest
  apply roundUnits_eq hd
  . apply shift_eq hd
    . omega
    . omega
  . omega
  . omega
  . omega

/--
At the beginning of a binade the midpoint below is nearer than the one above. What lies below the
magnitude is rounded up to it on the finer grid of the binade before.
-/
theorem RoundsTo.roundUnits_of_eq {e u d : Nat} (h : RoundsTo (e * 2 ^ 52 + 2 ^ 53) u d)
    (hd : 0 < d) : roundUnits u d = e * 2 ^ 52 + 2 ^ 53 := by
  obtain ⟨hlower, hupper, -⟩ := h
  have hbefore : units (e * 2 ^ 52 + 2 ^ 53 - 1) = (2 ^ 53 - 1) * 2 ^ e := by
    rw [Nat.add_sub_assoc (by omega), units_significand (by omega) (by omega)]
  have hself : units (e * 2 ^ 52 + 2 ^ 53) = 2 ^ 53 * 2 ^ e :=
    units_significand (by omega) (by omega)
  have hafter : units (e * 2 ^ 52 + 2 ^ 53 + 1) = (2 ^ 53 + 2) * 2 ^ e := by
    have hplace : e * 2 ^ 52 + 2 ^ 53 + 1 = (e + 1) * 2 ^ 52 + (2 ^ 52 + 1) := by omega
    rw [hplace, units_significand (by omega) (by omega), Nat.pow_succ]
    omega
  simp only [hbefore, hself, hafter, Nat.add_mul, Nat.sub_mul, Nat.one_mul, Nat.mul_assoc]
    at hlower hupper
  have hgrid : 0 < 2 ^ e * d := Nat.mul_pos (Nat.two_pow_pos e) hd
  have hcoarse : 2 ^ (e + 1) * d = 2 * (2 ^ e * d) := by
    rw [Nat.pow_succ, Nat.mul_comm (2 ^ e) 2, Nat.mul_assoc]
  -- Below the magnitude the grid is twice as fine.
  by_cases hbelow : u < 2 ^ 53 * (2 ^ e * d)
  . apply roundUnits_eq hd
    . apply shift_eq hd
      . omega
      . omega
    . omega
    . omega
    . omega
  . have hplace : e * 2 ^ 52 + 2 ^ 53 = (e + 1) * 2 ^ 52 + 2 ^ 52 := by omega
    rw [hplace]
    apply roundUnits_eq hd
    . apply shift_eq hd
      . omega
      . omega
    . omega
    . omega
    . omega

theorem RoundsTo.roundUnits {m u d : Nat} (h : RoundsTo m u d) (hpos : 0 < m) (hd : 0 < d) :
    roundUnits u d = m := by
  by_cases hsmall : m < 2 ^ 53
  . apply h.roundUnits_of_lt hpos hd hsmall
  . by_cases hbegin : m % 2 ^ 52 = 0
    . have hm : m = (m / 2 ^ 52 - 2) * 2 ^ 52 + 2 ^ 53 := by omega
      rw [hm] at h ⊢
      apply h.roundUnits_of_eq hd
    . have hm : m = (m / 2 ^ 52 - 1) * 2 ^ 52 + (2 ^ 52 + m % 2 ^ 52) := by omega
      rw [hm] at h ⊢
      apply h.roundUnits_of_gt hd
      . omega
      . omega

end Metering.Double
