import Metering.Decimal.Digits

/-!
This module contains how the length of a number tells its size, and what the zeros at the end of
digits are worth.
-/

namespace Metering.Decimal

theorem value_cons (d : Digit) (ds : List Digit) :
    value (d :: ds) = d.val * 10 ^ ds.length + value ds := by
  have hvalue : value [d] = d.val := by simp [value]
  rw [← List.singleton_append, value_append, hvalue]

theorem value_lt (ds : List Digit) : value ds < 10 ^ ds.length := by
  induction ds with
  | nil => decide
  | cons d ds ih =>
    have hd : d.val * 10 ^ ds.length ≤ 9 * 10 ^ ds.length := Nat.mul_le_mul_right _ (by omega)
    rw [value_cons, List.length_cons, Nat.pow_succ]
    omega

theorem value_zeros (k : Nat) : value (List.replicate k 0) = 0 := by
  induction k with
  | zero => rfl
  | succ k ih => rw [List.replicate_succ, value_cons, ih, Fin.val_zero, Nat.zero_mul]

theorem value_append_zeros (ds : List Digit) (k : Nat) :
    value (ds ++ List.replicate k 0) = value ds * 10 ^ k := by
  rw [value_append, List.length_replicate, value_zeros, Nat.add_zero]

/-!
## The digits of a number
-/

theorem digits_eq_cons {n : Nat} (h : 0 < n) : ∃ d ds, digits n = d :: ds ∧ d ≠ 0 := by
  induction n using Nat.strongRecOn with
  | ind n ih =>
    by_cases hlt : n < 10
    . refine ⟨⟨n, hlt⟩, [], digits_of_lt hlt, ?_⟩
      intro hzero
      have hn : n = 0 := congrArg Fin.val hzero
      omega
    . obtain ⟨d, ds, heq, hne⟩ := ih (n / 10) (by omega) (by omega)
      rw [digits_of_le (by omega), heq, List.cons_append]
      exact ⟨d, _, rfl, hne⟩

theorem lt_pow_length_digits (n : Nat) : n < 10 ^ (digits n).length := by
  have hlt := value_lt (digits n)
  rwa [value_digits] at hlt

theorem length_digits_le {n k : Nat} (h : n < 10 ^ (k + 1)) : (digits n).length ≤ k + 1 := by
  induction k generalizing n with
  | zero =>
    rw [digits_of_lt h]
    apply Nat.le_refl
  | succ k ih =>
    by_cases hlt : n < 10
    . rw [digits_of_lt hlt, List.length_singleton]
      omega
    . have hdiv : n / 10 < 10 ^ (k + 1) := by
        rw [Nat.div_lt_iff_lt_mul (by decide), ← Nat.pow_succ]
        exact h
      have hle := ih hdiv
      rw [digits_of_le (by omega), List.length_append, List.length_singleton]
      omega

/-!
## Zeros at the end
-/

theorem exists_eq_dropZeros_append (ds : List Digit) :
    ∃ j, ds = dropZeros ds ++ List.replicate j 0 := by
  have hzeros : ds.reverse.takeWhile (· = 0)
      = List.replicate (ds.reverse.takeWhile (· = 0)).length 0 := by
    rw [List.eq_replicate_iff]
    refine ⟨rfl, ?_⟩
    intro d hd
    simpa using List.all_eq_true.1 List.all_takeWhile d hd
  exists (ds.reverse.takeWhile (· = 0)).length
  unfold dropZeros
  rw [← List.reverse_replicate, ← hzeros, ← List.reverse_append, List.takeWhile_append_dropWhile,
    List.reverse_reverse]

theorem dropZeros_append_zeros (ds : List Digit) (k : Nat) :
    dropZeros (ds ++ List.replicate k 0) = dropZeros ds := by
  unfold dropZeros
  rw [List.reverse_append, List.reverse_replicate, List.dropWhile_append_of_pos]
  intro d hd
  simpa using List.eq_of_mem_replicate hd

def EndsInNonzero (ds : List Digit) : Prop :=
  ∃ es d, ds = es ++ [d] ∧ d ≠ 0

theorem dropZeros_eq_self {ds : List Digit} (h : EndsInNonzero ds) : dropZeros ds = ds := by
  obtain ⟨es, d, rfl, hd⟩ := h
  simp [dropZeros, hd]

theorem endsInNonzero_append {ds : List Digit} (h : EndsInNonzero ds) (es : List Digit) :
    EndsInNonzero (es ++ ds) := by
  obtain ⟨fs, d, rfl, hd⟩ := h
  exact ⟨es ++ fs, d, (List.append_assoc es fs [d]).symm, hd⟩

theorem endsInNonzero_drop {ds : List Digit} (h : EndsInNonzero ds) {n : Nat} (hn : n < ds.length) :
    EndsInNonzero (ds.drop n) := by
  obtain ⟨es, d, rfl, hd⟩ := h
  rw [List.length_append, List.length_singleton] at hn
  rw [List.drop_append_of_le_length (by omega)]
  exact ⟨es.drop n, d, rfl, hd⟩

theorem dropZeros_drop {ds : List Digit} (h : EndsInNonzero ds) (n : Nat) :
    dropZeros (ds.drop n) = ds.drop n := by
  by_cases hn : n < ds.length
  . apply dropZeros_eq_self (endsInNonzero_drop h hn)
  . rw [List.drop_eq_nil_of_le (Nat.le_of_not_lt hn)]
    rfl

theorem endsInNonzero_dropZeros {ds : List Digit} (h : value ds ≠ 0) :
    EndsInNonzero (dropZeros ds) := by
  unfold dropZeros
  cases hdrop : ds.reverse.dropWhile (· = 0) with
  | nil =>
    -- If nothing were left, all digits would be zeros.
    obtain ⟨j, hj⟩ := exists_eq_dropZeros_append ds
    unfold dropZeros at hj
    rw [hdrop, List.reverse_nil, List.nil_append] at hj
    rw [hj, value_zeros] at h
    exact absurd rfl h
  | cons d es =>
    have hd := List.head_dropWhile_not (· = 0) (l := ds.reverse) (by simp [hdrop])
    simp only [hdrop, List.head_cons, decide_eq_false_iff_not] at hd
    exact ⟨es.reverse, d, List.reverse_cons, hd⟩

end Metering.Decimal
