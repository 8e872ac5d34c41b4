import Metering.Natural

/-!
This module contains the decimal digits of a natural number and the value of a list of digits.
-/

namespace Metering.Decimal

abbrev Digit := Fin 10

namespace Digit

def char (d : Digit) : Char :=
  Char.ofNat (48 + d.val)

/--
The digit that a character stands for. Only the ten of ASCII count.
-/
def ofChar? (c : Char) : Option Digit :=
  if h : 48 ≤ c.toNat ∧ c.toNat < 58 then some ⟨c.toNat - 48, by omega⟩ else none

theorem ofChar?_char (d : Digit) : ofChar? d.char = some d := by
  revert d
  decide

end Digit

/--
The number that digits stand for, the most significant digit first.
-/
def value (ds : List Digit) : Nat :=
  ds.foldl (fun n d => 10 * n + d.val) 0

def digits (n : Nat) : List Digit :=
  go n []
where
  go (n : Nat) (acc : List Digit) : List Digit :=
    if h : n < 10 then ⟨n, h⟩ :: acc
    else go (n / 10) (⟨n % 10, Nat.mod_lt n (by decide)⟩ :: acc)

def dropZeros (ds : List Digit) : List Digit :=
  (ds.reverse.dropWhile (· = 0)).reverse

def text (n : Nat) : String :=
  String.ofList ((digits n).map Digit.char)

theorem value_nil : value [] = 0 := rfl

theorem foldl_value (n : Nat) (ds : List Digit) :
    ds.foldl (fun n d => 10 * n + d.val) n = n * 10 ^ ds.length + value ds := by
  induction ds generalizing n with
  | nil => simp [value_nil]
  | cons d ds ih =>
    rw [value, List.foldl_cons, List.foldl_cons, ih, ih (10 * 0 + d.val), List.length_cons,
      Nat.pow_succ', Nat.add_mul, Nat.mul_comm 10 n, Nat.mul_assoc, Nat.mul_zero, Nat.zero_add,
      Nat.add_assoc]

theorem value_append (ds es : List Digit) :
    value (ds ++ es) = value ds * 10 ^ es.length + value es := by
  rw [value, List.foldl_append, foldl_value]
  rfl

theorem digits_go (n : Nat) (acc : List Digit) : digits.go n acc = digits n ++ acc := by
  induction n using Nat.strongRecOn generalizing acc with
  | ind n ih =>
    unfold digits digits.go
    split
    . rfl
    . have hlt : n / 10 < n := by omega
      rw [ih _ hlt, ih _ hlt [_], List.append_assoc, List.singleton_append]

theorem digits_of_lt {n : Nat} (h : n < 10) : digits n = [⟨n, h⟩] := by
  rw [digits, digits.go, dif_pos h]

theorem digits_of_le {n : Nat} (h : 10 ≤ n) :
    digits n = digits (n / 10) ++ [⟨n % 10, Nat.mod_lt n (by decide)⟩] := by
  rw [digits, digits.go, dif_neg (by omega), digits_go]

theorem value_digits (n : Nat) : value (digits n) = n := by
  induction n using Nat.strongRecOn with
  | ind n ih =>
    by_cases h : n < 10
    . simp [digits_of_lt h, value]
    . rw [digits_of_le (by omega), value_append, ih _ (by omega)]
      simp only [value, List.length_singleton, List.foldl_cons, List.foldl_nil]
      omega

theorem digits_ne_nil (n : Nat) : digits n ≠ [] := by
  by_cases h : n < 10
  . simp [digits_of_lt h]
  . simp [digits_of_le (Nat.le_of_not_lt h)]

end Metering.Decimal
