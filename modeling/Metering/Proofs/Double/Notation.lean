import Metering.Double.Notation
import Metering.Proofs.Decimal.Digits
import Metering.Proofs.Double.Shortest

/-!
This module contains that a finite number is read back from the numeral with which it is written.
-/

namespace Metering.Double

open Metering.Decimal

/-!
## The shortest digits
-/

/--
What is known of the digits of a positive magnitude: the first and the last are not zero, there are
few, and with some zeros after them they are those of a number `c` such that `c * 10 ^ (s - 1074)`
stands for the magnitude.
-/
structure Scientific.Spells (x : Scientific) (m : Nat) : Prop where
  first : ∃ d ds, x.digits = d :: ds ∧ d ≠ 0
  last : EndsInNonzero x.digits
  few : x.digits.length ≤ 19
  stands : ∃ c s j : Nat, standsFor m (c * 10 ^ s)
    ∧ Decimal.digits c = x.digits ++ List.replicate j 0
    ∧ x.exponent + 1075 = s + x.digits.length + j

theorem ten_pow_pos (k : Nat) : 0 < 10 ^ k :=
  Nat.pow_pos (by decide)

theorem div_length_digits_lt (n : Nat) : n / 10 ^ ((digits n).length - 1) < 10 := by
  have hlt := lt_pow_length_digits n
  have hne : (digits n).length ≠ 0 := by
    rw [ne_eq, List.length_eq_zero_iff]
    apply digits_ne_nil
  have hlen : (digits n).length - 1 + 1 = (digits n).length := by omega
  rw [Nat.div_lt_iff_lt_mul (ten_pow_pos _), ← Nat.pow_succ', Nat.succ_eq_add_one, hlen]
  exact hlt

theorem ofMultiple_spells {m c s : Nat} (hpos : 0 < m) (hstands : standsFor m (c * 10 ^ s))
    (hle : c ≤ 10 ^ 18) : (Scientific.ofMultiple c s).Spells m := by
  have hcpos : 0 < c := Nat.pos_of_mul_pos_right (pos_of_standsFor hpos hstands)
  obtain ⟨j, hj⟩ := exists_eq_dropZeros_append (digits c)
  obtain ⟨d, ds, hdigits, hd⟩ := digits_eq_cons hcpos
  have hlast : EndsInNonzero (dropZeros (digits c)) := by
    apply endsInNonzero_dropZeros
    rw [value_digits]
    omega
  have hlength : (digits c).length = (dropZeros (digits c)).length + j := by
    rw [← List.length_replicate (n := j) (a := (0 : Digit)), ← List.length_append, ← hj]
  have hfew : (digits c).length ≤ 18 + 1 := length_digits_le (by omega)
  refine ⟨?_, hlast, ?_, c, s, j, hstands, hj, ?_⟩
  . unfold Scientific.ofMultiple
    cases hdrop : dropZeros (digits c) with
    | nil =>
      obtain ⟨es, e, heq, -⟩ := hlast
      rw [hdrop] at heq
      simp at heq
    | cons e es =>
      rw [hdrop, hdigits, List.cons_append, List.cons.injEq] at hj
      exact ⟨e, es, rfl, hj.1 ▸ hd⟩
  . dsimp only [Scientific.ofMultiple]
    omega
  . dsimp only [Scientific.ofMultiple]
    omega

theorem shortest_spells (tie : Tie) {m : Nat} (hpos : 0 < m) : (shortest tie m).Spells m := by
  have hstart : scaled m / 10 ^ ((digits (scaled m)).length - 1) < 10 ^ 18 :=
    Nat.lt_trans (div_length_digits_lt (scaled m)) (by decide)
  obtain ⟨hstands, hle⟩ := coarsest_spec tie hpos hstart
  apply ofMultiple_spells hpos hstands hle

/-!
## Reading
-/

theorem pow_le_of_standsFor {m x : Nat} (hpos : 0 < m) (h : standsFor m x) :
    5 ^ 1074 ≤ 2 * x := by
  have hlt := units_lt_units_succ (m - 1)
  rw [Nat.sub_add_cancel hpos] at hlt
  have hle : 5 ^ 1074 ≤ scaled m := Nat.le_mul_of_pos_left _ (Nat.zero_lt_of_lt hlt)
  rw [standsFor_iff] at h
  apply Nat.le_trans hle (Nat.le_trans (Nat.le_add_left _ _) h.1.1)

theorem mul_lt_mul_of_eq {a b c f t : Nat} (h : a < b * c) (hf : 0 < f) (ht : t = c * f) :
    a * f < b * t := by
  rw [ht, ← Nat.mul_assoc]
  apply Nat.mul_lt_mul_of_pos_right h hf

theorem lt_of_standsFor {m x : Nat} (hfinite : m < infinite) (h : standsFor m x) :
    x < 10 ^ 400 * 10 ^ 1074 := by
  have hself : scaled m ≤ scaled infinite :=
    Nat.mul_le_mul_right _ (units_mono (Nat.le_of_lt hfinite))
  have hafter : scaled (m + 1) ≤ scaled infinite := Nat.mul_le_mul_right _ (units_mono hfinite)
  have hinfinite : scaled infinite < 10 ^ 400 * 10 ^ 1074 := by
    have hlt : 2 ^ 53 * 2 ^ 2045 < 10 ^ 400 * 2 ^ 1074 := by decide +kernel
    have hmul := mul_lt_mul_of_eq hlt (five_pow_pos 1074) (ten_pow_eq 1074)
    unfold scaled
    rw [units_infinite]
    exact hmul
  rw [standsFor_iff] at h
  generalize 10 ^ 400 * 10 ^ 1074 = bound at *
  omega

theorem exponent_lt {x n a t k : Nat} (hx : n * 10 ^ a * t = x) (hn : 0 < n)
    (hlt : x < 10 ^ k * t) : a < k := by
  rw [← hx] at hlt
  have hle : 10 ^ a ≤ n * 10 ^ a := Nat.le_mul_of_pos_left _ hn
  have hpow := Nat.lt_of_le_of_lt hle (Nat.lt_of_mul_lt_mul_right hlt)
  exact (Nat.pow_lt_pow_iff_right (by decide)).1 hpow

theorem lt_size_add {x n b size t u k : Nat} (hx : n * t = x * 10 ^ b) (hlt : n < 10 ^ size)
    (hle : u ≤ 2 * x) (ht : 2 * t ≤ u * 10 ^ k) (htpos : 0 < t) : b < size + k := by
  apply Nat.lt_of_not_le
  intro hge
  have hpow : 10 ^ (size + k) ≤ 10 ^ b := Nat.pow_le_pow_right (by decide) hge
  have hcontra : 2 * t * 10 ^ size < 2 * t * 10 ^ size :=
    calc 2 * t * 10 ^ size
      _ ≤ u * 10 ^ k * 10 ^ size := Nat.mul_le_mul_right _ ht
      _ = u * 10 ^ (size + k) := by rw [Nat.mul_assoc, ← Nat.pow_add, Nat.add_comm]
      _ ≤ u * 10 ^ b := Nat.mul_le_mul_left _ hpow
      _ ≤ 2 * x * 10 ^ b := Nat.mul_le_mul_right _ hle
      _ = 2 * (n * t) := by rw [Nat.mul_assoc, ← hx]
      _ < 2 * (10 ^ size * t) := by
        have hmul := Nat.mul_lt_mul_of_pos_right hlt htpos
        omega
      _ = 2 * t * 10 ^ size := by rw [Nat.mul_comm (10 ^ size), Nat.mul_assoc]
  apply Nat.lt_irrefl _ hcontra

theorem pos_of_mul_eq {n x a b t : Nat} (hx : n * 10 ^ a * t = x * 10 ^ b) (hpos : 0 < x) :
    0 < n := by
  have hmul : 0 < n * 10 ^ a * t := hx ▸ Nat.mul_pos hpos (ten_pow_pos b)
  rw [Nat.mul_assoc] at hmul
  apply Nat.pos_of_mul_pos_right hmul

theorem nearestDecimal_of_standsFor {m x n size : Nat} {p : Int} {a b : Nat} (hpos : 0 < m)
    (hfinite : m < infinite) (h : standsFor m x) (hp : p = a - b) (hab : a = 0 ∨ b = 0)
    (hlt : n < 10 ^ size) (hx : n * 10 ^ a * 10 ^ 1074 = x * 10 ^ b) :
    nearestDecimal n size p = m := by
  -- The exponent is in the range where powers are computed, since the decimal lies between the
  -- least and the greatest magnitude.
  have hn := pos_of_mul_eq hx (pos_of_standsFor hpos h)
  unfold nearestDecimal
  rw [if_neg (Nat.ne_of_gt hn)]
  cases hab with
  | inl ha =>
    subst ha
    rw [Nat.pow_zero, Nat.mul_one] at hx
    have hsize : b < size + 400 :=
      lt_size_add hx hlt (pow_le_of_standsFor hpos h) (by decide +kernel) (ten_pow_pos 1074)
    rw [if_neg (by omega), if_neg (by omega)]
    split
    . have hb : b = 0 := by omega
      have hexponent : p.toNat = 0 := by omega
      rw [hexponent, Nat.pow_zero, Nat.mul_one]
      rw [hb, Nat.pow_zero] at hx
      apply nearest_of_standsFor h hpos hfinite Nat.one_pos hx
    . have hexponent : (-p).toNat = b := by omega
      rw [hexponent]
      apply nearest_of_standsFor h hpos hfinite (ten_pow_pos b) hx
  | inr hb =>
    subst hb
    rw [Nat.pow_zero, Nat.mul_one] at hx
    have hlimit : a < 400 := exponent_lt hx hn (lt_of_standsFor hfinite h)
    have hexponent : p.toNat = a := by omega
    rw [if_neg (by omega), if_neg (by omega), if_pos (by omega), hexponent]
    apply nearest_of_standsFor h hpos hfinite Nat.one_pos
    rw [hx, Nat.mul_one]

theorem shift_eq_shift (v k j s t : Nat) :
    v * 10 ^ k * 10 ^ (s + j - (k + t)) * 10 ^ t
      = v * 10 ^ j * 10 ^ s * 10 ^ (k + t - (s + j)) := by
  have hsum : k + (s + j - (k + t)) + t = j + s + (k + t - (s + j)) := by omega
  rw [Nat.mul_assoc v, ← Nat.pow_add, Nat.mul_assoc v, ← Nat.pow_add, Nat.mul_assoc v,
    ← Nat.pow_add, Nat.mul_assoc v, ← Nat.pow_add, hsum]

theorem Scientific.Spells.nearestDigits {x : Scientific} {m : Nat} (h : x.Spells m) (hpos : 0 < m)
    (hfinite : m < infinite) {k : Nat} (hk : k ≤ 700) :
    Double.nearestDigits (x.digits ++ List.replicate k 0)
      (x.exponent + 1 - (x.digits.length + k)) = m := by
  obtain ⟨c, s, j, hstands, hdigits, hexponent⟩ := h.stands
  have hfew := h.few
  have hvalue : value x.digits * 10 ^ j = c := by
    rw [← value_append_zeros, ← hdigits, value_digits]
  have hlength : (x.digits ++ List.replicate k 0).length = x.digits.length + k := by
    rw [List.length_append, List.length_replicate]
  unfold Double.nearestDigits
  rw [hlength, if_pos (by unfold digitLimit; omega)]
  have hsize := value_lt (x.digits ++ List.replicate k 0)
  rw [hlength] at hsize
  -- The power of ten may belong to either side of the equation.
  apply nearestDecimal_of_standsFor (a := s + j - (k + 1074)) (b := k + 1074 - (s + j)) hpos
    hfinite hstands
  . omega
  . omega
  . exact hsize
  . rw [value_append_zeros, ← hvalue]
    apply shift_eq_shift (value x.digits) k j s 1074

theorem ofNumeral?_of_nearestDigits {n : Numeral} {ds : List Digit} {p : Int} {m : Nat}
    (hdigits : (n.whole ++ dropZeros n.fraction).dropWhile (· = 0) = ds)
    (hp : n.exponent.getD 0 - (dropZeros n.fraction).length = p) (hm : nearestDigits ds p = m)
    (hfinite : m < infinite) : ofNumeral? n = some (ofMagnitude n.negative m) := by
  unfold ofNumeral?
  dsimp only
  rw [hdigits, hp, hm, if_neg (by omega)]

section

variable {x : Scientific} {m : Nat} {style : Style}

theorem Scientific.Spells.dropWhile_append (h : x.Spells m) (ds : List Digit) :
    (x.digits ++ ds).dropWhile (· = 0) = x.digits ++ ds := by
  obtain ⟨d, es, heq, hd⟩ := h.first
  rw [heq, List.cons_append, List.dropWhile_cons_of_neg (by simpa using hd)]

theorem Scientific.Spells.dropWhile_digits (h : x.Spells m) :
    x.digits.dropWhile (· = 0) = x.digits := by
  have happend := h.dropWhile_append []
  rwa [List.append_nil] at happend

theorem Scientific.Spells.ofNumeral? (h : x.Spells m) (hpos : 0 < m) (hfinite : m < infinite)
    {n : Numeral} (hdigits : (n.whole ++ dropZeros n.fraction).dropWhile (· = 0) = x.digits)
    (hp : n.exponent.getD 0 - (dropZeros n.fraction).length = x.exponent + 1 - x.digits.length) :
    Double.ofNumeral? n = some (ofMagnitude n.negative m) := by
  apply ofNumeral?_of_nearestDigits hdigits hp _ hfinite
  have hnearest := h.nearestDigits hpos hfinite (Nat.zero_le 700)
  rwa [List.replicate_zero, List.append_nil, Int.natCast_zero, Int.add_zero] at hnearest

theorem Scientific.Spells.ofNumeral?_whole (h : x.Spells m) (hpos : 0 < m)
    (hfinite : m < infinite) {size : Nat} (hsize : x.exponent + 1 = size) (hlimit : size ≤ 700)
    (hle : x.digits.length ≤ size) (negative : Bool) (decimals : Nat) :
    Double.ofNumeral? ⟨negative, x.digits.take size ++ List.replicate (size - x.digits.length) 0,
      padFraction decimals (x.digits.drop size), none⟩ = some (ofMagnitude negative m) := by
  -- The zeros that pad a whole part are read as digits, those of a fraction are dropped.
  have hnil : dropZeros (padFraction decimals (x.digits.drop size)) = [] := by
    unfold padFraction
    rw [dropZeros_append_zeros, List.drop_eq_nil_of_le hle]
    rfl
  apply ofNumeral?_of_nearestDigits _ rfl _ hfinite
  . apply x.digits ++ List.replicate (size - x.digits.length) 0
  . rw [hnil, List.append_nil, List.take_of_length_le hle, h.dropWhile_append]
  . have hnearest := h.nearestDigits hpos hfinite (k := size - x.digits.length) (by omega)
    have hexponent : x.exponent + 1 - (x.digits.length + (size - x.digits.length : Nat)) = 0 := by
      omega
    rw [hexponent] at hnearest
    rw [hnil]
    exact hnearest

theorem Scientific.Spells.ofNumeral?_split (h : x.Spells m) (hpos : 0 < m)
    (hfinite : m < infinite) {size : Nat} (hsize : x.exponent + 1 = size)
    (hlt : size < x.digits.length) (negative : Bool) (decimals : Nat) :
    Double.ofNumeral? ⟨negative, x.digits.take size ++ List.replicate (size - x.digits.length) 0,
      padFraction decimals (x.digits.drop size), none⟩ = some (ofMagnitude negative m) := by
  have hzeros : size - x.digits.length = 0 := by omega
  have hfraction : dropZeros (padFraction decimals (x.digits.drop size)) = x.digits.drop size := by
    unfold padFraction
    rw [dropZeros_append_zeros, dropZeros_drop h.last]
  apply h.ofNumeral? hpos hfinite
  . rw [hfraction, hzeros, List.replicate_zero, List.append_nil, List.take_append_drop,
      h.dropWhile_digits]
  . rw [hfraction, List.length_drop, Option.getD_none]
    omega

theorem Scientific.Spells.ofNumeral?_fraction (h : x.Spells m) (hpos : 0 < m)
    (hfinite : m < infinite) {zeros : Nat} (hzeros : x.exponent + 1 = -zeros) (negative : Bool)
    (decimals : Nat) :
    Double.ofNumeral? ⟨negative, [0],
      padFraction decimals (List.replicate zeros 0 ++ x.digits), none⟩
      = some (ofMagnitude negative m) := by
  have hfraction : dropZeros (padFraction decimals (List.replicate zeros 0 ++ x.digits))
      = List.replicate zeros 0 ++ x.digits := by
    unfold padFraction
    rw [dropZeros_append_zeros]
    apply dropZeros_eq_self
    apply endsInNonzero_append h.last
  -- The zeros before the first digit are dropped, whichever side of the point they are on.
  have hleading : [0] ++ (List.replicate zeros 0 ++ x.digits)
      = List.replicate (zeros + 1) 0 ++ x.digits := rfl
  apply h.ofNumeral? hpos hfinite
  . rw [hfraction, hleading, List.dropWhile_append_of_pos, h.dropWhile_digits]
    intro d hd
    simpa using List.eq_of_mem_replicate hd
  . rw [hfraction, List.length_append, List.length_replicate, Option.getD_none]
    omega

theorem Scientific.Spells.ofNumeral?_exponent (h : x.Spells m) (hpos : 0 < m)
    (hfinite : m < infinite) (negative : Bool) :
    Double.ofNumeral? ⟨negative, x.digits.take 1, x.digits.drop 1, some x.exponent⟩
      = some (ofMagnitude negative m) := by
  apply h.ofNumeral? hpos hfinite
  . rw [dropZeros_drop h.last, List.take_append_drop, h.dropWhile_digits]
  . have hlength : 0 < x.digits.length := by
      obtain ⟨d, es, heq, -⟩ := h.first
      rw [heq]
      apply Nat.succ_pos
    rw [dropZeros_drop h.last, List.length_drop, Option.getD_some]
    omega

theorem Scientific.Spells.ofNumeral?_numeral (h : x.Spells m) (hpos : 0 < m)
    (hfinite : m < infinite) (hstyle : style.positional x.exponent → x.exponent < 700)
    (negative : Bool) :
    Double.ofNumeral? (x.numeral style negative) = some (ofMagnitude negative m) := by
  unfold Scientific.numeral
  split
  . next hpositional =>
    have hlimit := hstyle hpositional
    split
    . by_cases hle : x.digits.length ≤ x.exponent.toNat + 1
      . apply h.ofNumeral?_whole hpos hfinite _ _ hle
        . omega
        . omega
      . apply h.ofNumeral?_split hpos hfinite _ (Nat.lt_of_not_le hle)
        omega
    . apply h.ofNumeral?_fraction hpos hfinite
      omega
  . apply h.ofNumeral?_exponent hpos hfinite negative

end

theorem nearestDecimal_zero (size : Nat) (p : Int) : nearestDecimal 0 size p = 0 := by
  unfold nearestDecimal
  rw [if_pos rfl]

theorem nearestDigits_nil (p : Int) : nearestDigits [] p = 0 := by
  unfold nearestDigits
  rw [List.length_nil, if_pos (Nat.zero_le digitLimit), value_nil, nearestDecimal_zero]

theorem ofNumeral?_zero_numeral (style : Style) (negative : Bool) :
    ofNumeral? (Scientific.numeral style negative ⟨[0], 0⟩) = some (ofMagnitude negative 0) := by
  have hpositive : 0 < infinite := by decide
  have hfraction : dropZeros (padFraction style.decimals []) = [] := dropZeros_append_zeros [] _
  unfold Scientific.numeral
  split
  . apply ofNumeral?_of_nearestDigits _ rfl (nearestDigits_nil _) hpositive
    show ([0] ++ dropZeros (padFraction style.decimals [])).dropWhile (· = 0) = []
    rw [hfraction]
    rfl
  . exact ofNumeral?_of_nearestDigits rfl rfl (nearestDigits_nil _) hpositive

theorem ofNumeral?_numeral {x : Double} (h : x.isFinite) {style : Style}
    (hstyle : ∀ e, style.positional e → e < 700) : ofNumeral? (x.numeral style) = some x := by
  have hfinite : x.magnitude < infinite := by simpa [isFinite] using h
  unfold numeral scientific
  split
  . next hzero => rw [ofNumeral?_zero_numeral, ← hzero, ofMagnitude_magnitude]
  . next hne =>
    have hpos := Nat.pos_of_ne_zero hne
    rw [(shortest_spells style.tie hpos).ofNumeral?_numeral hpos hfinite (hstyle _),
      ofMagnitude_magnitude]

end Metering.Double
