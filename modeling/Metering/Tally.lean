import Metering.Natural

/-!
This module contains counts of changes. A count has 64 bits and stays at its greatest value instead
of starting again from zero, so adding counts is a monoid.
-/

namespace Metering

/--
A count that stops at `2 ^ 64 - 1`.
-/
@[ext]
structure Tally where
  toNat : Nat
  toNat_lt : toNat < 2 ^ 64
  deriving DecidableEq

namespace Tally

def max : Nat := 2 ^ 64 - 1

theorem toNat_le_max (t : Tally) : t.toNat ≤ max := by
  have := t.toNat_lt
  simp only [max]
  omega

def ofNat (n : Nat) : Tally :=
  ⟨min n max, by simp only [max]; omega⟩

def ofNat? (n : Nat) : Option Tally :=
  if h : n < 2 ^ 64 then some ⟨n, h⟩ else none

instance : OfNat Tally n := ⟨ofNat n⟩

instance : Add Tally := ⟨fun a b => ofNat (a.toNat + b.toNat)⟩

instance : Inhabited Tally := ⟨0⟩

@[simp]
theorem toNat_zero : (0 : Tally).toNat = 0 := rfl

@[simp]
theorem toNat_one : (1 : Tally).toNat = 1 := rfl

theorem toNat_ofNat (n : Nat) : (ofNat n).toNat = min n max := rfl

theorem toNat_add (a b : Tally) : (a + b).toNat = min (a.toNat + b.toNat) max := rfl

theorem ofNat?_toNat (t : Tally) : ofNat? t.toNat = some t := by
  rw [ofNat?, dif_pos t.toNat_lt]

theorem toNat_of_ofNat? {n : Nat} {t : Tally} (h : ofNat? n = some t) : t.toNat = n := by
  simp only [ofNat?] at h
  split at h
  . cases h
    rfl
  . cases h

theorem ofNat?_eq_some_iff {n : Nat} {t : Tally} : ofNat? n = some t ↔ n = t.toNat := by
  constructor
  . intro h
    rw [toNat_of_ofNat? h]
  . rintro rfl
    apply ofNat?_toNat

protected theorem add_comm (a b : Tally) : a + b = b + a := by
  ext
  simp only [toNat_add]
  omega

protected theorem add_assoc (a b c : Tally) : a + b + c = a + (b + c) := by
  ext
  simp only [toNat_add]
  omega

protected theorem zero_add (a : Tally) : 0 + a = a := by
  have := a.toNat_le_max
  ext
  simp only [toNat_add, toNat_zero]
  omega

protected theorem add_zero (a : Tally) : a + 0 = a := by
  rw [Tally.add_comm, Tally.zero_add]

def sum (ts : List Tally) : Tally :=
  ts.foldl (· + ·) 0

theorem foldl_add (ts : List Tally) (t : Tally) : ts.foldl (· + ·) t = t + sum ts := by
  unfold sum
  induction ts generalizing t with
  | nil => rw [List.foldl_nil, List.foldl_nil, Tally.add_zero]
  | cons u ts ih =>
    rw [List.foldl_cons, List.foldl_cons, ih, ih (0 + u), Tally.zero_add, Tally.add_assoc]

@[simp]
theorem sum_nil : sum [] = 0 := rfl

@[simp]
theorem sum_cons (t : Tally) (ts : List Tally) : sum (t :: ts) = t + sum ts := by
  rw [← foldl_add, sum, List.foldl_cons, Tally.zero_add]

@[simp]
theorem sum_append (ts us : List Tally) : sum (ts ++ us) = sum ts + sum us := by
  rw [← foldl_add, sum, List.foldl_append]
  rfl

theorem sum_perm {ts us : List Tally} (h : ts.Perm us) : sum ts = sum us := by
  induction h with
  | nil => rfl
  | cons t _ ih => rw [sum_cons, sum_cons, ih]
  | swap t u ts =>
    simp only [sum_cons]
    rw [← Tally.add_assoc, Tally.add_comm u, Tally.add_assoc]
  | trans _ _ ih ih' => rw [ih, ih']

theorem toNat_sum_eq_zero_iff {ts : List Tally} :
    (sum ts).toNat = 0 ↔ ∀ t ∈ ts, t.toNat = 0 := by
  induction ts with
  | nil => simp
  | cons t ts ih =>
    have hadd : (t + sum ts).toNat = 0 ↔ t.toNat = 0 ∧ (sum ts).toNat = 0 := by
      simp only [toNat_add, max]
      omega
    rw [sum_cons, hadd, ih, List.forall_mem_cons]

end Tally

end Metering
