import Metering.Bytes
import Metering.Decimal.Digits

/-!
This module contains decimal numerals: their parts, their text, their value, and how one is read
from the beginning of a byte sequence.
-/

namespace Metering.Decimal

/--
A decimal numeral. An empty fraction is one that is not written.
-/
structure Numeral where
  negative : Bool
  whole : List Digit
  fraction : List Digit
  exponent : Option Int
  deriving DecidableEq

namespace Numeral

def ofInt (i : Int) : Numeral :=
  ⟨i < 0, digits i.natAbs, [], none⟩

def coefficient (n : Numeral) : Nat :=
  value (n.whole ++ n.fraction)

/--
The integer that a numeral spells out. A numeral with a fraction or an exponent spells none, and
neither does a zero with a sign.
-/
def toInt? (n : Numeral) : Option Int :=
  if n.fraction ≠ [] ∨ n.exponent ≠ none then none
  else if n.negative then
    if n.coefficient = 0 then none else some (-n.coefficient)
  else some n.coefficient

theorem toInt?_ofInt (i : Int) : (ofInt i).toInt? = some i := by
  have hvalue : (ofInt i).coefficient = i.natAbs := by
    rw [coefficient, ofInt, List.append_nil, value_digits]
  have hwhole : ¬((ofInt i).fraction ≠ [] ∨ (ofInt i).exponent ≠ none) := by
    rintro (h | h) <;> exact h rfl
  rw [toInt?, if_neg hwhole, hvalue]
  by_cases hneg : i < 0
  . have hsign : (ofInt i).negative = true := decide_eq_true hneg
    rw [if_pos hsign, if_neg (by omega)]
    congr 1
    omega
  . have hsign : (ofInt i).negative = false := decide_eq_false hneg
    rw [hsign, if_neg Bool.false_ne_true]
    congr 1
    omega

/-!
## Text
-/

inductive Mark where
  | bare
  | plus
  deriving DecidableEq

def exponentChars (mark : Mark) (e : Int) : List Char :=
  'e' :: (if e < 0 then ['-'] else if mark = .plus then ['+'] else [])
    ++ (digits e.natAbs).map Digit.char

def chars (mark : Mark) (n : Numeral) : List Char :=
  (if n.negative then ['-'] else [])
    ++ n.whole.map Digit.char
    ++ (if n.fraction = [] then [] else '.' :: n.fraction.map Digit.char)
    ++ (match n.exponent with
      | none => []
      | some e => exponentChars mark e)

/-!
## Reading
-/

def digit? (b : UInt8) : Option Digit :=
  if h : 48 ≤ b.toNat ∧ b.toNat < 58 then some ⟨b.toNat - 48, by omega⟩ else none

def takeDigits : Bytes → List Digit × Bytes
  | [] => ([], [])
  | b :: bs =>
    match digit? b with
    | none => ([], b :: bs)
    | some d =>
      let (ds, rest) := takeDigits bs
      (d :: ds, rest)

def takeWhole? (bs : Bytes) : Option (List Digit × Bytes) :=
  match takeDigits bs with
  | ([], _) => none
  | (d :: ds, rest) => if d = 0 ∧ ds ≠ [] then none else some (d :: ds, rest)

def takeFraction? : Bytes → Option (List Digit × Bytes)
  | [] => some ([], [])
  | b :: bs =>
    if b = Bytes.ofChar '.' then
      match takeDigits bs with
      | ([], _) => none
      | (ds, rest) => some (ds, rest)
    else
      some ([], b :: bs)

def takeSign : Bytes → Bool × Bytes
  | [] => (false, [])
  | b :: bs =>
    if b = Bytes.ofChar '-' then (true, bs)
    else if b = Bytes.ofChar '+' then (false, bs)
    else (false, b :: bs)

def takeExponent? : Bytes → Option (Option Int × Bytes)
  | [] => some (none, [])
  | b :: bs =>
    if b = Bytes.ofChar 'e' ∨ b = Bytes.ofChar 'E' then
      let (negative, bs) := takeSign bs
      match takeDigits bs with
      | ([], _) => none
      | (ds, rest) => some (some (if negative then -value ds else value ds), rest)
    else
      some (none, b :: bs)

def takeMinus : Bytes → Bool × Bytes
  | [] => (false, [])
  | b :: bs => if b = Bytes.ofChar '-' then (true, bs) else (false, b :: bs)

def take? (bs : Bytes) : Option (Numeral × Bytes) := do
  let (negative, bs) := takeMinus bs
  let (whole, bs) ← takeWhole? bs
  let (fraction, bs) ← takeFraction? bs
  let (exponent, bs) ← takeExponent? bs
  return (⟨negative, whole, fraction, exponent⟩, bs)

theorem length_takeDigits (bs : Bytes) : (takeDigits bs).2.length ≤ bs.length := by
  induction bs with
  | nil => simp [takeDigits]
  | cons b bs ih =>
    simp only [takeDigits]
    split
    . simp
    . simp only [List.length_cons]
      omega

theorem length_takeWhole? {bs rest : Bytes} {ds : List Digit}
    (h : takeWhole? bs = some (ds, rest)) : rest.length < bs.length := by
  cases bs with
  | nil => simp [takeWhole?, takeDigits] at h
  | cons b bs =>
    have hle := length_takeDigits bs
    simp only [takeWhole?, takeDigits] at h
    cases hd : digit? b with
    | none => simp [hd] at h
    | some d =>
      simp only [hd] at h
      split at h
      . cases h
      . cases h
        simp
        omega

theorem length_takeFraction? {bs rest : Bytes} {ds : List Digit}
    (h : takeFraction? bs = some (ds, rest)) : rest.length ≤ bs.length := by
  cases bs with
  | nil =>
    cases h
    simp
  | cons b bs =>
    have hle := length_takeDigits bs
    simp only [takeFraction?] at h
    split at h
    . split at h
      . cases h
      . cases h
        simp_all
        omega
    . cases h
      simp

theorem length_takeSign (bs : Bytes) : (takeSign bs).2.length ≤ bs.length := by
  cases bs with
  | nil => simp [takeSign]
  | cons b bs =>
    simp only [takeSign]
    split
    . simp
    . split <;> simp

theorem length_takeMinus (bs : Bytes) : (takeMinus bs).2.length ≤ bs.length := by
  cases bs with
  | nil => simp [takeMinus]
  | cons b bs =>
    simp only [takeMinus]
    split <;> simp

theorem length_takeExponent? {bs rest : Bytes} {e : Option Int}
    (h : takeExponent? bs = some (e, rest)) : rest.length ≤ bs.length := by
  cases bs with
  | nil =>
    cases h
    simp
  | cons b bs =>
    have hsign := length_takeSign bs
    have hdigits := length_takeDigits (takeSign bs).2
    simp only [takeExponent?] at h
    split at h
    . split at h
      . cases h
      . cases h
        simp_all
        omega
    . cases h
      simp

theorem length_take? {bs rest : Bytes} {n : Numeral} (h : take? bs = some (n, rest)) :
    rest.length < bs.length := by
  simp only [take?, Option.bind_eq_bind, Option.bind_eq_some_iff, Prod.exists] at h
  obtain ⟨whole, bs₁, hwhole, fraction, bs₂, hfraction, exponent, bs₃, hexponent, heq⟩ := h
  have h₀ := length_takeMinus bs
  have h₁ := length_takeWhole? hwhole
  have h₂ := length_takeFraction? hfraction
  have h₃ := length_takeExponent? hexponent
  cases heq
  omega

end Numeral

end Metering.Decimal
