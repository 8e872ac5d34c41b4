import Mathlib.Algebra.Order.BigOperators.Group.List
import Mathlib.Algebra.Order.Group.Int
import Mathlib.Algebra.Ring.Int.Defs
import Metering.Integer

/-!
This module contains sums of integers that are brought back into the range of 64 bits after each
addition: when nothing is lost by that, when it may as well be done once at the end, and that larger
integers never lead to a smaller sum.
-/

namespace Metering.Integer

def InRange (i : Int) : Prop :=
  -2 ^ 63 ≤ i ∧ i < 2 ^ 63

/--
The integer in range that is nearest to `i`.
-/
def bounded (i : Int) : Int :=
  max (-2 ^ 63) (min i (2 ^ 63 - 1))

/--
The sum of `i` and the integers `as`, brought back into range after each addition.
-/
def boundedSum (i : Int) (as : List Int) : Int :=
  as.foldl (fun sum a => bounded (sum + a)) i

/--
Whether no partial sum of `i` and the integers `as` leaves the range.
-/
def Stays (i : Int) (as : List Int) : Prop :=
  ∀ bs, bs <+: as → InRange (i + bs.sum)

theorem inRange_toInt (n : Int64) : InRange n.toInt :=
  ⟨n.le_toInt, n.toInt_lt⟩

theorem inRange_bounded (i : Int) : InRange (bounded i) := by
  unfold InRange bounded
  omega

theorem bounded_of_inRange {i : Int} (h : InRange i) : bounded i = i := by
  unfold InRange at h
  unfold bounded
  omega

theorem bounded_mono {i j : Int} (h : i ≤ j) : bounded i ≤ bounded j := by
  unfold bounded
  omega

@[simp]
theorem boundedSum_nil (i : Int) : boundedSum i [] = i := rfl

@[simp]
theorem boundedSum_cons (i a : Int) (as : List Int) :
    boundedSum i (a :: as) = boundedSum (bounded (i + a)) as := rfl

theorem Stays.tail {i a : Int} {as : List Int} (h : Stays i (a :: as)) : Stays (i + a) as := by
  intro bs hbs
  have hrange := h (a :: bs) ((List.cons_prefix_cons).2 ⟨rfl, hbs⟩)
  rwa [List.sum_cons, ← Int.add_assoc] at hrange

theorem Stays.head {i a : Int} {as : List Int} (h : Stays i (a :: as)) : InRange (i + a) := by
  have hrange := h.tail [] List.nil_prefix
  rwa [List.sum_nil, Int.add_zero] at hrange

theorem boundedSum_of_stays {i : Int} {as : List Int} (h : Stays i as) :
    boundedSum i as = i + as.sum := by
  induction as generalizing i with
  | nil => simp
  | cons a as ih =>
    rw [boundedSum_cons, bounded_of_inRange h.head, ih h.tail, List.sum_cons, Int.add_assoc]

def OneWay (as : List Int) : Prop :=
  (∀ a ∈ as, 0 ≤ a) ∨ ∀ a ∈ as, a ≤ 0

theorem OneWay.tail {a : Int} {as : List Int} (h : OneWay (a :: as)) : OneWay as := by
  cases h with
  | inl h => exact .inl fun b hb => h b (List.mem_cons_of_mem a hb)
  | inr h => exact .inr fun b hb => h b (List.mem_cons_of_mem a hb)

theorem OneWay.signs {a : Int} {as : List Int} (h : OneWay (a :: as)) :
    0 ≤ a ∧ 0 ≤ as.sum ∨ a ≤ 0 ∧ as.sum ≤ 0 := by
  cases h with
  | inl h =>
    rw [List.forall_mem_cons] at h
    exact .inl ⟨h.1, List.sum_nonneg h.2⟩
  | inr h =>
    rw [List.forall_mem_cons] at h
    have hsum := List.sum_le_card_nsmul as 0 h.2
    rw [nsmul_zero] at hsum
    exact .inr ⟨h.1, hsum⟩

/--
A sum that only grows or only shrinks stays at the end of the range once it is there.
-/
theorem boundedSum_of_oneWay {i : Int} {as : List Int} (hi : InRange i) (h : OneWay as) :
    boundedSum i as = bounded (i + as.sum) := by
  induction as generalizing i with
  | nil =>
    rw [List.sum_nil, Int.add_zero, bounded_of_inRange hi]
    rfl
  | cons a as ih =>
    have hsigns := h.signs
    rw [boundedSum_cons, ih (inRange_bounded _) h.tail, List.sum_cons]
    unfold InRange at hi
    unfold bounded
    omega

theorem boundedSum_mono {i j : Int} {as bs : List Int} (hij : i ≤ j)
    (h : List.Forall₂ (· ≤ ·) as bs) : boundedSum i as ≤ boundedSum j bs := by
  induction h generalizing i j with
  | nil => exact hij
  | cons hab _ ih =>
    apply ih
    apply bounded_mono
    omega

end Metering.Integer
