import Metering.Double.Shortest
import Metering.Proofs.Double.Nearest

/-!
This module contains what is known of the decimal that is found for a magnitude: it is rounded to
the magnitude, and it has few digits, since the grid of powers of ten on which it lies is not much
finer than the magnitudes are apart.
-/

namespace Metering.Double

theorem units_lt_units_succ (m : Nat) : units m < units (m + 1) := by
  by_cases hsmall : m < 2 ^ 53
  . rw [units_of_le (by omega), units_of_le (by omega)]
    omega
  . have hm : m = (m / 2 ^ 52 - 1) * 2 ^ 52 + (2 ^ 52 + m % 2 ^ 52) := by omega
    rw [hm, Nat.add_assoc, units_significand (by omega) (by omega),
      units_significand (by omega) (by omega)]
    apply Nat.mul_lt_mul_of_pos_right
    . omega
    . apply Nat.two_pow_pos

theorem units_le_mul_sub (m : Nat) : units m ≤ 2 ^ 53 * (units (m + 1) - units m) := by
  by_cases hsmall : m < 2 ^ 53
  . rw [units_of_le (by omega), units_of_le (by omega)]
    omega
  . have hm : m = (m / 2 ^ 52 - 1) * 2 ^ 52 + (2 ^ 52 + m % 2 ^ 52) := by omega
    rw [hm, Nat.add_assoc, units_significand (by omega) (by omega),
      units_significand (by omega) (by omega), ← Nat.sub_mul, ← Nat.mul_assoc]
    apply Nat.mul_le_mul_right
    omega

theorem units_mono {m n : Nat} (h : m ≤ n) : units m ≤ units n := by
  induction h with
  | refl => apply Nat.le_refl
  | step _ ih => apply Nat.le_trans ih (Nat.le_of_lt (units_lt_units_succ _))

theorem units_binade (e : Nat) : units (e * 2 ^ 52 + 2 ^ 53) = 2 ^ 53 * 2 ^ e := by
  apply units_significand <;> omega

theorem units_infinite : units infinite = 2 ^ 53 * 2 ^ 2045 := by
  have hinfinite : infinite = 2045 * 2 ^ 52 + 2 ^ 53 := by decide
  rw [hinfinite, units_binade]

/-!
## Fractions near a magnitude
-/

theorem mul_le_iff_of_eq {a x n d t f : Nat} (hd : 0 < d) (hf : 0 < f)
    (hx : n * (t * f) = x * d) : a * f ≤ 2 * x ↔ a * d ≤ 2 * (n * t) :=
  calc a * f ≤ 2 * x
    _ ↔ a * f * d ≤ 2 * x * d := (Nat.mul_le_mul_right_iff hd).symm
    _ ↔ a * d * f ≤ 2 * (n * t) * f := by
      rw [Nat.mul_assoc 2 x d, ← hx, Nat.mul_right_comm a f d, Nat.mul_assoc 2 (n * t) f,
        Nat.mul_assoc n t f]
    _ ↔ a * d ≤ 2 * (n * t) := Nat.mul_le_mul_right_iff hf

theorem le_mul_iff_of_eq {a x n d t f : Nat} (hd : 0 < d) (hf : 0 < f)
    (hx : n * (t * f) = x * d) : 2 * x ≤ a * f ↔ 2 * (n * t) ≤ a * d :=
  calc 2 * x ≤ a * f
    _ ↔ 2 * x * d ≤ a * f * d := (Nat.mul_le_mul_right_iff hd).symm
    _ ↔ 2 * (n * t) * f ≤ a * d * f := by
      rw [Nat.mul_assoc 2 x d, ← hx, Nat.mul_right_comm a f d, Nat.mul_assoc 2 (n * t) f,
        Nat.mul_assoc n t f]
    _ ↔ 2 * (n * t) ≤ a * d := Nat.mul_le_mul_right_iff hf

theorem standsFor_iff {m x : Nat} :
    standsFor m x ↔
      (scaled (m - 1) + scaled m ≤ 2 * x ∧ 2 * x ≤ scaled m + scaled (m + 1))
        ∧ (m % 2 = 1 → scaled (m - 1) + scaled m < 2 * x ∧ 2 * x < scaled m + scaled (m + 1)) := by
  unfold standsFor
  dsimp only
  split
  . next heven => simp [heven]
  . next hodd =>
    have hodd : m % 2 = 1 := by omega
    simp only [Bool.and_eq_true, decide_eq_true_eq, hodd, forall_const]
    omega

theorem ten_pow_eq (k : Nat) : 10 ^ k = 2 ^ k * 5 ^ k := by
  rw [← Nat.mul_pow]

theorem five_pow_pos (k : Nat) : 0 < 5 ^ k :=
  Nat.pow_pos (by decide)

theorem roundsTo_of_standsFor {m x n d : Nat} (h : standsFor m x) (hd : 0 < d)
    (hx : n * 10 ^ 1074 = x * d) : RoundsTo m (n * 2 ^ 1074) d := by
  rw [ten_pow_eq 1074] at hx
  rw [standsFor_iff] at h
  unfold scaled at h
  simp only [← Nat.add_mul] at h
  obtain ⟨⟨hlower, hupper⟩, hstrict⟩ := h
  have hf := five_pow_pos 1074
  refine ⟨(mul_le_iff_of_eq hd hf hx).1 hlower, (le_mul_iff_of_eq hd hf hx).1 hupper, ?_⟩
  intro hodd
  obtain ⟨hlower, hupper⟩ := hstrict hodd
  constructor
  . apply Nat.lt_of_not_le
    rw [← le_mul_iff_of_eq hd hf hx]
    apply Nat.not_le_of_lt hlower
  . apply Nat.lt_of_not_le
    rw [← mul_le_iff_of_eq hd hf hx]
    apply Nat.not_le_of_lt hupper

theorem nearest_of_standsFor {m x n d : Nat} (h : standsFor m x) (hpos : 0 < m)
    (hfinite : m < infinite) (hd : 0 < d) (hx : n * 10 ^ 1074 = x * d) : nearest n d = m := by
  rw [nearest_eq, (roundsTo_of_standsFor h hd hx).roundUnits hpos hd]
  omega

/-!
## The search
-/

theorem scaled_lt_scaled {m n : Nat} (h : units m < units n) : scaled m < scaled n :=
  Nat.mul_lt_mul_of_pos_right h (five_pow_pos 1074)

theorem scaled_lt_scaled_succ (m : Nat) : scaled m < scaled (m + 1) :=
  scaled_lt_scaled (units_lt_units_succ m)

theorem scaled_pred_lt_scaled {m : Nat} (hpos : 0 < m) : scaled (m - 1) < scaled m := by
  have hlt := scaled_lt_scaled_succ (m - 1)
  rwa [Nat.sub_add_cancel hpos] at hlt

theorem standsFor_of_lt {m x : Nat} (hlower : scaled (m - 1) + scaled m < 2 * x)
    (hupper : 2 * x < scaled m + scaled (m + 1)) : standsFor m x := by
  rw [standsFor_iff]
  omega

theorem standsFor_scaled {m : Nat} (hpos : 0 < m) : standsFor m (scaled m) := by
  have hbefore := scaled_pred_lt_scaled hpos
  have hafter := scaled_lt_scaled_succ m
  apply standsFor_of_lt <;> omega

theorem pos_of_standsFor {m x : Nat} (hpos : 0 < m) (h : standsFor m x) : 0 < x := by
  have hbefore := scaled_pred_lt_scaled hpos
  rw [standsFor_iff] at h
  omega

theorem scaled_le_mul_sub (m : Nat) : scaled m ≤ 2 ^ 53 * (scaled (m + 1) - scaled m) := by
  unfold scaled
  rw [← Nat.sub_mul, ← Nat.mul_assoc]
  apply Nat.mul_le_mul_right
  apply units_le_mul_sub

/--
If neither neighbour of a magnitude on a grid stands for it, the magnitude is not much greater than
the step of the grid.
-/
theorem scaled_le_of_not_standsFor {m step : Nat} (hpos : 0 < m) (hstep : 0 < step)
    (hbelow : ¬standsFor m (scaled m / step * step))
    (habove : ¬standsFor m ((scaled m / step + 1) * step)) : scaled m ≤ 2 ^ 54 * step := by
  have hbefore := scaled_pred_lt_scaled hpos
  have hafter := scaled_lt_scaled_succ m
  have hsub := scaled_le_mul_sub m
  have hlt := Nat.mod_lt (scaled m) hstep
  have hdiv : scaled m / step * step + scaled m % step = scaled m := by
    rw [Nat.mul_comm]
    apply Nat.div_add_mod
  rw [Nat.add_mul, Nat.one_mul] at habove
  -- Both neighbours lie outside, so the interval of the magnitude is shorter than a step.
  have hlower : 2 * (scaled m / step * step) ≤ scaled (m - 1) + scaled m := by
    apply Nat.le_of_not_lt
    intro hgt
    apply hbelow
    apply standsFor_of_lt <;> omega
  have hupper : scaled m + scaled (m + 1) ≤ 2 * (scaled m / step * step + step) := by
    apply Nat.le_of_not_lt
    intro hgt
    apply habove
    apply standsFor_of_lt <;> omega
  omega

theorem nearerMultiple_eq (tie : Tie) (v step : Nat) :
    nearerMultiple tie v step = v / step ∨ nearerMultiple tie v step = v / step + 1 := by
  unfold nearerMultiple
  dsimp only
  split
  . left
    rfl
  . split
    . right
      rfl
    . cases tie with
      | up =>
        right
        rfl
      | even =>
        dsimp only
        omega

theorem coarsest_cases (tie : Tie) (m s : Nat) :
    (∃ c, coarsest tie m s = (c, s) ∧ standsFor m (c * 10 ^ s) ∧ c ≤ scaled m / 10 ^ s + 1)
      ∨ ¬standsFor m (scaled m / 10 ^ s * 10 ^ s)
        ∧ ¬standsFor m ((scaled m / 10 ^ s + 1) * 10 ^ s)
        ∧ coarsest tie m s =
          match s with
          | 0 => (scaled m, 0)
          | s + 1 => coarsest tie m s := by
  rw [coarsest.eq_def tie m s]
  dsimp only
  cases hbelow : standsFor m (scaled m / 10 ^ s * 10 ^ s) with
  | true =>
    left
    cases habove : standsFor m ((scaled m / 10 ^ s + 1) * 10 ^ s) with
    | true =>
      cases nearerMultiple_eq tie (scaled m) (10 ^ s) with
      | inl heq => exact ⟨_, rfl, by rw [heq, hbelow], by omega⟩
      | inr heq => exact ⟨_, rfl, by rw [heq, habove], by omega⟩
    | false => exact ⟨_, rfl, hbelow, by omega⟩
  | false =>
    cases habove : standsFor m ((scaled m / 10 ^ s + 1) * 10 ^ s) with
    | true =>
      left
      exact ⟨_, rfl, habove, Nat.le_refl _⟩
    | false =>
      right
      exact ⟨nofun, nofun, rfl⟩

/--
The decimal that is found stands for the magnitude, and it has few digits.
-/
theorem coarsest_spec (tie : Tie) {m s : Nat} (hpos : 0 < m) (hs : scaled m / 10 ^ s < 10 ^ 18) :
    standsFor m ((coarsest tie m s).1 * 10 ^ (coarsest tie m s).2)
      ∧ (coarsest tie m s).1 ≤ 10 ^ 18 := by
  induction s with
  | zero =>
    obtain ⟨c, hc, hstands, hle⟩ | ⟨-, -, hc⟩ := coarsest_cases tie m 0
    . rw [hc]
      exact ⟨hstands, by omega⟩
    . rw [Nat.pow_zero, Nat.div_one] at hs
      rw [hc, Nat.pow_zero, Nat.mul_one]
      exact ⟨standsFor_scaled hpos, Nat.le_of_lt hs⟩
  | succ s ih =>
    obtain ⟨c, hc, hstands, hle⟩ | ⟨hbelow, habove, hc⟩ := coarsest_cases tie m (s + 1)
    . rw [hc]
      exact ⟨hstands, by omega⟩
    . rw [hc]
      apply ih
      have hten : ∀ k, 0 < 10 ^ k := fun k => Nat.pow_pos (by decide)
      -- The magnitude is not much greater than the step that failed, so few steps of the next grid
      -- fit below it.
      have hle := scaled_le_of_not_standsFor hpos (hten (s + 1)) hbelow habove
      have hlt : 2 ^ 54 * 10 * 10 ^ s < 10 ^ 18 * 10 ^ s :=
        Nat.mul_lt_mul_of_pos_right (by decide) (hten s)
      rw [Nat.pow_succ] at hle
      rw [Nat.div_lt_iff_lt_mul (hten s)]
      omega

end Metering.Double
