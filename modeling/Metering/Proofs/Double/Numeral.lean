import Metering.Proofs.Decimal.Numeral
import Metering.Proofs.Double.Notation

/-!
This module contains the form of the numerals of finite numbers, which is never that of an integer,
and the names of the other numbers.
-/

namespace Metering

namespace Decimal.Numeral

theorem wellFormed_ofInt (i : Int) : (ofInt i).WellFormed := by
  by_cases hzero : i.natAbs = 0
  . refine ⟨0, [], ?_, fun _ => rfl⟩
    unfold ofInt
    rw [hzero]
    exact digits_of_lt (by decide)
  . obtain ⟨d, ds, hdigits, hne⟩ := digits_eq_cons (Nat.pos_of_ne_zero hzero)
    exact ⟨d, ds, hdigits, fun hd => absurd hd hne⟩

end Decimal.Numeral

namespace Double

open Metering.Decimal

def Scientific.LeadsWell (x : Scientific) : Prop :=
  ∃ d ds, x.digits = d :: ds ∧ (d = 0 → x = ⟨[0], 0⟩)

theorem scientific_leadsWell (tie : Tie) (m : Nat) : (scientific tie m).LeadsWell := by
  unfold scientific
  split
  . exact ⟨0, [], rfl, fun _ => rfl⟩
  . next hne =>
    obtain ⟨d, ds, hdigits, hd⟩ := (shortest_spells tie (Nat.pos_of_ne_zero hne)).first
    exact ⟨d, ds, hdigits, fun hzero => absurd hzero hd⟩

theorem Scientific.LeadsWell.wellFormed_numeral {x : Scientific} (h : x.LeadsWell) (style : Style)
    (negative : Bool) : (x.numeral style negative).WellFormed := by
  obtain ⟨d, ds, hdigits, hzero⟩ := h
  unfold Scientific.numeral
  rw [hdigits]
  split
  . split
    . exists d
      exists ds.take x.exponent.toNat
        ++ List.replicate (x.exponent.toNat + 1 - (d :: ds).length) 0
      refine ⟨rfl, ?_⟩
      intro hd
      cases hzero hd
      cases hdigits
      rfl
    . exact ⟨0, [], rfl, fun _ => rfl⟩
  . exact ⟨d, [], rfl, fun _ => rfl⟩

theorem wellFormed_numeral (style : Style) (x : Double) : (x.numeral style).WellFormed :=
  (scientific_leadsWell style.tie x.magnitude).wellFormed_numeral style x.negative

theorem padFraction_ne_nil {decimals : Nat} (h : 0 < decimals) (ds : List Digit) :
    padFraction decimals ds ≠ [] := by
  unfold padFraction
  cases ds with
  | nil =>
    rw [List.nil_append, List.length_nil, Nat.sub_zero, ne_eq, List.replicate_eq_nil_iff]
    omega
  | cons d ds => apply List.cons_ne_nil

theorem toInt?_numeral {style : Style} (h : 0 < style.decimals) (x : Double) :
    (x.numeral style).toInt? = none := by
  unfold numeral Scientific.numeral Numeral.toInt?
  split
  . split <;>
    . rw [if_pos]
      left
      apply padFraction_ne_nil h
  . rw [if_pos]
    right
    nofun

/-!
## Numbers that are not finite
-/

def canonical (x : Double) : Double :=
  if x.isNaN then nan else x

theorem canonical_of_isFinite {x : Double} (h : x.isFinite) : x.canonical = x := by
  simp only [isFinite, decide_eq_true_eq] at h
  unfold canonical isNaN
  rw [if_neg]
  simp only [decide_eq_true_eq]
  omega

theorem ofNonFiniteName?_nonFiniteName {x : Double} (h : ¬x.isFinite) :
    ofNonFiniteName? x.nonFiniteName = some x.canonical := by
  unfold nonFiniteName canonical
  split
  . rfl
  . next hnumber =>
    have hinfinite : x.magnitude = infinite := by
      simp only [isFinite, isNaN, decide_eq_true_eq] at h hnumber
      omega
    have hx := ofMagnitude_magnitude x
    rw [hinfinite] at hx
    cases hnegative : x.negative with
    | true =>
      rw [hnegative] at hx
      rw [← hx]
      rfl
    | false =>
      rw [hnegative] at hx
      rw [← hx]
      rfl

end Double

end Metering
