import Metering.Decimal.Numeral

/-!
This module contains the ways of writing a numeral. They are what is read as that numeral, as long
as what follows cannot be taken for more of it.
-/

namespace Metering.Decimal

theorem Digit.toNat_ofChar_char (d : Digit) : (Bytes.ofChar d.char).toNat = 48 + d.val := by
  revert d
  decide

namespace Numeral

/--
Whether a numeral has a whole part, without leading zeros.
-/
def WellFormed (n : Numeral) : Prop :=
  ∃ d ds, n.whole = d :: ds ∧ (d = 0 → ds = [])

/--
Whether a byte sequence does not begin with what may continue a numeral.
-/
def Ends (bs : Bytes) : Prop :=
  ∀ b ∈ bs.head?, digit? b = none ∧ b ≠ Bytes.ofChar '.' ∧ b ≠ Bytes.ofChar 'e'
    ∧ b ≠ Bytes.ofChar 'E'

def NoDigit (bs : Bytes) : Prop :=
  ∀ b ∈ bs.head?, digit? b = none

theorem Ends.noDigit {bs : Bytes} (h : Ends bs) : NoDigit bs :=
  fun b hb => (h b hb).1

theorem digit?_eq_some_iff {b : UInt8} {d : Digit} :
    digit? b = some d ↔ b = Bytes.ofChar d.char := by
  rw [← UInt8.toNat_inj, Digit.toNat_ofChar_char]
  unfold digit?
  split
  . rw [Option.some.injEq, Fin.ext_iff]
    dsimp only
    omega
  . simp only [reduceCtorEq, false_iff]
    omega

/-!
## The ways of writing a numeral
-/

def digitBytes (ds : List Digit) : Bytes :=
  Bytes.ascii (ds.map Digit.char)

def minusBytes (negative : Bool) : Bytes :=
  if negative then [Bytes.ofChar '-'] else []

def fractionBytes (ds : List Digit) : Bytes :=
  if ds = [] then [] else Bytes.ofChar '.' :: digitBytes ds

def signed (negative : Bool) (ds : List Digit) : Int :=
  if negative then -value ds else value ds

inductive SignWritten : Bool → Bytes → Prop where
  | bare : SignWritten false []
  | plus : SignWritten false [Bytes.ofChar '+']
  | minus : SignWritten true [Bytes.ofChar '-']

/--
How an exponent may be written: after a small or a capital letter, with or without a sign, and with
zeros at the beginning.
-/
inductive ExponentWritten : Option Int → Bytes → Prop where
  | none : ExponentWritten none []
  | some {letter : UInt8} {negative : Bool} {sign : Bytes} {ds : List Digit}
    (hletter : letter = Bytes.ofChar 'e' ∨ letter = Bytes.ofChar 'E')
    (hsign : SignWritten negative sign) (hds : ds ≠ []) :
    ExponentWritten (some (signed negative ds)) (letter :: (sign ++ digitBytes ds))

/--
Whether a byte sequence is a way of writing a numeral.
-/
structure Written (n : Numeral) (bs : Bytes) : Prop where
  wellFormed : n.WellFormed
  parts : ∃ exponent, ExponentWritten n.exponent exponent
    ∧ bs = minusBytes n.negative ++ digitBytes n.whole ++ fractionBytes n.fraction ++ exponent

theorem digitBytes_cons (d : Digit) (ds : List Digit) :
    digitBytes (d :: ds) = Bytes.ofChar d.char :: digitBytes ds := rfl

theorem ascii_append (cs ds : List Char) :
    Bytes.ascii (cs ++ ds) = Bytes.ascii cs ++ Bytes.ascii ds :=
  List.map_append

def signChars (mark : Mark) (e : Int) : List Char :=
  if e < 0 then ['-'] else if mark = .plus then ['+'] else []

theorem signWritten_signChars (mark : Mark) (e : Int) :
    SignWritten (decide (e < 0)) (Bytes.ascii (signChars mark e)) := by
  unfold signChars
  split
  . next hneg =>
    rw [decide_eq_true hneg]
    exact .minus
  . next hneg =>
    rw [decide_eq_false hneg]
    cases mark with
    | bare => exact .bare
    | plus => exact .plus

theorem signed_digits (e : Int) : signed (decide (e < 0)) (digits e.natAbs) = e := by
  unfold signed
  rw [value_digits]
  split
  . next hneg =>
    have := of_decide_eq_true hneg
    omega
  . next hneg =>
    rw [decide_eq_true_eq] at hneg
    omega

theorem exponentWritten_exponentChars (mark : Mark) (e : Int) :
    ExponentWritten (some e) (Bytes.ascii (exponentChars mark e)) := by
  have hwritten := ExponentWritten.some (.inl rfl) (signWritten_signChars mark e)
    (digits_ne_nil e.natAbs)
  rw [signed_digits] at hwritten
  have hchars : exponentChars mark e
      = 'e' :: (signChars mark e ++ (digits e.natAbs).map Digit.char) := rfl
  rw [hchars]
  unfold digitBytes at hwritten
  rw [← ascii_append] at hwritten
  exact hwritten

/--
A numeral is written as one of the ways of writing it.
-/
theorem WellFormed.written {n : Numeral} (h : n.WellFormed) (mark : Mark) :
    n.Written (Bytes.ascii (n.chars mark)) := by
  obtain ⟨negative, whole, fraction, exponent⟩ := n
  refine ⟨h, ?_⟩
  unfold chars
  rw [ascii_append, ascii_append, ascii_append]
  have hminus : Bytes.ascii (if negative then ['-'] else []) = minusBytes negative := by
    cases negative <;> rfl
  have hfraction : Bytes.ascii (if fraction = [] then [] else '.' :: fraction.map Digit.char)
      = fractionBytes fraction := by
    cases fraction <;> rfl
  rw [hminus, hfraction]
  cases exponent with
  | none => exact ⟨_, .none, rfl⟩
  | some e => exact ⟨_, exponentWritten_exponentChars mark e, rfl⟩

/-!
## Each way is read
-/

theorem takeDigits_of_noDigit {rest : Bytes} (h : NoDigit rest) : takeDigits rest = ([], rest) := by
  cases rest with
  | nil => rfl
  | cons b bs =>
    unfold takeDigits
    rw [h b rfl]

theorem takeDigits_append {rest : Bytes} (h : NoDigit rest) (ds : List Digit) :
    takeDigits (digitBytes ds ++ rest) = (ds, rest) := by
  induction ds with
  | nil => apply takeDigits_of_noDigit h
  | cons d ds ih =>
    rw [digitBytes_cons, List.cons_append]
    unfold takeDigits
    rw [digit?_eq_some_iff.2 rfl, ih]

theorem takeWhole?_append {rest : Bytes} (h : NoDigit rest) {d : Digit} {ds : List Digit}
    (hzero : d = 0 → ds = []) :
    takeWhole? (digitBytes (d :: ds) ++ rest) = some (d :: ds, rest) := by
  unfold takeWhole?
  rw [takeDigits_append h]
  dsimp only
  rw [if_neg]
  rintro ⟨hd, hds⟩
  apply hds (hzero hd)

theorem takeFraction?_append {rest : Bytes} (h : NoDigit rest)
    (hpoint : ∀ b ∈ rest.head?, b ≠ Bytes.ofChar '.') (ds : List Digit) :
    takeFraction? (fractionBytes ds ++ rest) = some (ds, rest) := by
  cases ds with
  | nil =>
    show takeFraction? rest = some ([], rest)
    cases rest with
    | nil => rfl
    | cons b bs =>
      simp only [takeFraction?]
      rw [if_neg (hpoint b rfl)]
  | cons d ds =>
    have hcons : fractionBytes (d :: ds) ++ rest
        = Bytes.ofChar '.' :: (digitBytes (d :: ds) ++ rest) := rfl
    rw [hcons]
    simp only [takeFraction?, if_true]
    rw [takeDigits_append h]

theorem ofChar_char_ne_of_digit?_eq_none {b : UInt8} (h : digit? b = none) (d : Digit) :
    Bytes.ofChar d.char ≠ b := by
  rintro rfl
  rw [digit?_eq_some_iff.2 rfl] at h
  cases h

theorem takeSign_append {negative : Bool} {sign : Bytes} (h : SignWritten negative sign)
    (d : Digit) (bs : Bytes) :
    takeSign (sign ++ Bytes.ofChar d.char :: bs) = (negative, Bytes.ofChar d.char :: bs) := by
  cases h with
  | bare =>
    have hminus := ofChar_char_ne_of_digit?_eq_none (b := Bytes.ofChar '-') (by decide) d
    have hplus := ofChar_char_ne_of_digit?_eq_none (b := Bytes.ofChar '+') (by decide) d
    simp only [List.nil_append, takeSign]
    rw [if_neg hminus, if_neg hplus]
  | plus => rfl
  | minus => rfl

theorem takeExponent?_append {rest : Bytes} (h : Ends rest) {exponent : Option Int} {bs : Bytes}
    (hwritten : ExponentWritten exponent bs) :
    takeExponent? (bs ++ rest) = some (exponent, rest) := by
  cases hwritten with
  | none =>
    show takeExponent? rest = some (none, rest)
    cases rest with
    | nil => rfl
    | cons b bs =>
      obtain ⟨-, -, he, hE⟩ := h b rfl
      simp only [takeExponent?]
      rw [if_neg (not_or.2 ⟨he, hE⟩)]
  | @some letter negative sign ds hletter hsign hds =>
    obtain ⟨d, ds, rfl⟩ := List.exists_cons_of_ne_nil hds
    have hdigits := takeDigits_append h.noDigit (d :: ds)
    rw [digitBytes_cons, List.cons_append] at hdigits
    rw [List.cons_append, List.append_assoc, digitBytes_cons, List.cons_append]
    simp only [takeExponent?]
    rw [if_pos hletter, takeSign_append hsign]
    dsimp only
    rw [hdigits]
    rfl

theorem takeMinus_append (negative : Bool) (d : Digit) (bs : Bytes) :
    takeMinus (minusBytes negative ++ Bytes.ofChar d.char :: bs)
      = (negative, Bytes.ofChar d.char :: bs) := by
  cases negative with
  | true => rfl
  | false =>
    have hminus := ofChar_char_ne_of_digit?_eq_none (b := Bytes.ofChar '-') (by decide) d
    simp only [minusBytes, Bool.false_eq_true, if_false, List.nil_append, takeMinus]
    rw [if_neg hminus]

theorem noDigit_exponent {rest : Bytes} (h : Ends rest) {exponent : Option Int} {bs : Bytes}
    (hwritten : ExponentWritten exponent bs) :
    ∀ b ∈ (bs ++ rest).head?, digit? b = none ∧ b ≠ Bytes.ofChar '.' := by
  intro b hb
  cases hwritten with
  | none => exact ⟨(h b hb).1, (h b hb).2.1⟩
  | some hletter =>
    cases hb
    rcases hletter with rfl | rfl <;> decide

theorem noDigit_fraction {rest : Bytes} (h : NoDigit rest) (ds : List Digit) :
    NoDigit (fractionBytes ds ++ rest) := by
  intro b hb
  cases ds with
  | nil => apply h b hb
  | cons d ds =>
    cases hb
    decide

theorem take?_append {n : Numeral} {bs : Bytes} (hwritten : n.Written bs) {rest : Bytes}
    (h : Ends rest) : take? (bs ++ rest) = some (n, rest) := by
  obtain ⟨⟨d, ds, hwhole, hzero⟩, exponent, hexponent, rfl⟩ := hwritten
  -- Each part is followed by bytes that cannot be taken for more of it.
  have hplain := noDigit_exponent h hexponent
  have hnoDigit := noDigit_fraction (fun b hb => (hplain b hb).1) n.fraction
  have hminus := takeMinus_append n.negative d
    (digitBytes ds ++ (fractionBytes n.fraction ++ (exponent ++ rest)))
  rw [← List.cons_append, ← digitBytes_cons] at hminus
  rw [hwhole, List.append_assoc, List.append_assoc, List.append_assoc]
  unfold take?
  rw [hminus]
  simp only [takeWhole?_append hnoDigit hzero, Option.bind_eq_bind, Option.bind_some,
    takeFraction?_append (fun b hb => (hplain b hb).1) (fun b hb => (hplain b hb).2),
    takeExponent?_append h hexponent]
  rw [← hwhole]
  rfl

/-!
## Nothing else is read
-/

theorem eq_of_takeDigits {bs rest : Bytes} {ds : List Digit} (h : takeDigits bs = (ds, rest)) :
    bs = digitBytes ds ++ rest := by
  induction bs generalizing ds rest with
  | nil =>
    cases h
    rfl
  | cons b bs ih =>
    unfold takeDigits at h
    split at h
    . cases h
      rfl
    . next d hd =>
      cases h
      rw [digitBytes_cons, List.cons_append, ← ih rfl, digit?_eq_some_iff.1 hd]

theorem eq_of_takeWhole? {bs rest : Bytes} {ds : List Digit} (h : takeWhole? bs = some (ds, rest)) :
    bs = digitBytes ds ++ rest ∧ ∃ d es, ds = d :: es ∧ (d = 0 → es = []) := by
  unfold takeWhole? at h
  split at h
  . cases h
  . next d es r hdigits =>
    split at h
    . cases h
    . next hzero =>
      cases h
      refine ⟨eq_of_takeDigits hdigits, d, es, rfl, ?_⟩
      exact fun hd => Decidable.byContradiction fun hes => hzero ⟨hd, hes⟩

theorem eq_of_takeFraction? {bs rest : Bytes} {ds : List Digit}
    (h : takeFraction? bs = some (ds, rest)) : bs = fractionBytes ds ++ rest := by
  cases bs with
  | nil =>
    cases h
    rfl
  | cons b bs =>
    simp only [takeFraction?] at h
    split at h
    . next hpoint =>
      split at h
      . cases h
      . next hne hdigits =>
        cases h
        rw [eq_of_takeDigits hdigits, hpoint, fractionBytes, if_neg hne, List.cons_append]
    . cases h
      rfl

theorem exists_of_takeSign (bs : Bytes) :
    ∃ sign, SignWritten (takeSign bs).1 sign ∧ bs = sign ++ (takeSign bs).2 := by
  cases bs with
  | nil => exact ⟨[], .bare, rfl⟩
  | cons b bs =>
    simp only [takeSign]
    split
    . next hminus => exact ⟨_, .minus, by rw [hminus, List.singleton_append]⟩
    . split
      . next hplus => exact ⟨_, .plus, by rw [hplus, List.singleton_append]⟩
      . exact ⟨[], .bare, rfl⟩

theorem exists_of_takeExponent? {bs rest : Bytes} {exponent : Option Int}
    (h : takeExponent? bs = some (exponent, rest)) :
    ∃ written, ExponentWritten exponent written ∧ bs = written ++ rest := by
  cases bs with
  | nil =>
    cases h
    exact ⟨[], .none, rfl⟩
  | cons b bs =>
    simp only [takeExponent?] at h
    split at h
    . next hletter =>
      obtain ⟨sign, hsign, hbs⟩ := exists_of_takeSign bs
      split at h
      . cases h
      . next ds r hne hdigits =>
        cases h
        refine ⟨_, .some hletter hsign hne, ?_⟩
        rw [eq_of_takeDigits hdigits] at hbs
        rw [hbs, List.cons_append, List.append_assoc]
    . cases h
      exact ⟨[], .none, rfl⟩

theorem minusBytes_takeMinus (bs : Bytes) :
    minusBytes (takeMinus bs).1 ++ (takeMinus bs).2 = bs := by
  cases bs with
  | nil => rfl
  | cons b bs =>
    simp only [takeMinus]
    split
    . next hminus =>
      rw [hminus]
      rfl
    . rfl

theorem exists_of_take? {bs rest : Bytes} {n : Numeral} (h : take? bs = some (n, rest)) :
    ∃ written, n.Written written ∧ bs = written ++ rest := by
  simp only [take?, Option.bind_eq_bind, Option.bind_eq_some_iff, Prod.exists] at h
  obtain ⟨whole, bs₁, hwhole, fraction, bs₂, hfraction, exponent, bs₃, hexponent, heq⟩ := h
  obtain ⟨hwhole, hwellFormed⟩ := eq_of_takeWhole? hwhole
  obtain ⟨written, hwritten, hexponent⟩ := exists_of_takeExponent? hexponent
  cases heq
  refine ⟨_, ⟨hwellFormed, written, hwritten, rfl⟩, ?_⟩
  rw [List.append_assoc, List.append_assoc, List.append_assoc, ← hexponent,
    ← eq_of_takeFraction? hfraction, ← hwhole, minusBytes_takeMinus]

end Numeral

end Metering.Decimal
