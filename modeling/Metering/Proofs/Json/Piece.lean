import Metering.Json.Piece
import Metering.Proofs.Text

/-!
This module contains the ways of spelling a text by the pieces of a JSON string, and the ways of
writing the pieces. They are what is read as the text and as the pieces.
-/

namespace Metering.Json

/--
Whether a list is put together from one part for each member of another list.
-/
inductive Joined {α β : Type} (R : α → List β → Prop) : List α → List β → Prop where
  | nil : Joined R [] []
  | cons {a : α} {as : List α} {bs cs : List β} (ha : R a bs) (has : Joined R as cs) :
    Joined R (a :: as) (bs ++ cs)

theorem Joined.flatMap {α β : Type} {R : α → List β → Prop} {f : α → List β} {as : List α}
    (h : ∀ a ∈ as, R a (f a)) : Joined R as (as.flatMap f) := by
  induction as with
  | nil => exact .nil
  | cons a as ih =>
    rw [List.forall_mem_cons] at h
    exact .cons h.1 (ih h.2)

namespace Piece

/-!
## Characters
-/

theorem char?_toNat {least : Nat} {c : Char} (h : least ≤ c.toNat) :
    char? least c.toNat = some c := by
  unfold char?
  rw [if_pos ⟨h, c.valid⟩, Char.ofNat_toNat]

theorem toNat_lt (c : Char) : c.toNat < 0x110000 := by
  have hvalid : c.toNat < 0xD800 ∨ 0xDFFF < c.toNat ∧ c.toNat < 0x110000 := c.valid
  omega

theorem toNat_of_char? {least n : Nat} {c : Char} (h : char? least n = some c) :
    least ≤ n ∧ c.toNat = n := by
  unfold char? at h
  split at h
  . next hvalid =>
    cases h
    exact ⟨hvalid.1, Text.toNat_ofNat hvalid.2⟩
  . cases h

theorem twoByteChar?_eq_some_iff {a b : UInt8} {c : Char} :
    twoByteChar? a b = some c ↔
      (0x80 ≤ c.toNat ∧ c.toNat ≤ 0x7FF) ∧ a.toNat = c.toNat / 64 + 0xC0
        ∧ b.toNat = c.toNat % 64 + 0x80 := by
  unfold twoByteChar? isTail
  simp only [decide_eq_true_eq]
  split
  . constructor
    . intro h
      have := toNat_of_char? h
      omega
    . rintro ⟨hrange, ha, hb⟩
      have hnat : a.toNat % 32 * 64 + b.toNat % 64 = c.toNat := by omega
      rw [hnat, char?_toNat hrange.1]
  . simp only [reduceCtorEq, false_iff]
    omega

theorem threeByteChar?_eq_some_iff {a b d : UInt8} {c : Char} :
    threeByteChar? a b d = some c ↔
      (0x800 ≤ c.toNat ∧ c.toNat ≤ 0xFFFF) ∧ a.toNat = c.toNat / 4096 + 0xE0
        ∧ b.toNat = c.toNat / 64 % 64 + 0x80 ∧ d.toNat = c.toNat % 64 + 0x80 := by
  unfold threeByteChar? isTail
  simp only [decide_eq_true_eq]
  split
  . constructor
    . intro h
      have := toNat_of_char? h
      omega
    . rintro ⟨hrange, ha, hb, hd⟩
      have hnat : a.toNat % 16 * 4096 + b.toNat % 64 * 64 + d.toNat % 64 = c.toNat := by omega
      rw [hnat, char?_toNat hrange.1]
  . simp only [reduceCtorEq, false_iff]
    omega

theorem fourByteChar?_eq_some_iff {a b d e : UInt8} {c : Char} :
    fourByteChar? a b d e = some c ↔
      0x10000 ≤ c.toNat ∧ a.toNat = c.toNat / 262144 + 0xF0
        ∧ b.toNat = c.toNat / 4096 % 64 + 0x80 ∧ d.toNat = c.toNat / 64 % 64 + 0x80
        ∧ e.toNat = c.toNat % 64 + 0x80 := by
  have hlt := toNat_lt c
  unfold fourByteChar? isTail
  simp only [decide_eq_true_eq]
  split
  . constructor
    . intro h
      have := toNat_of_char? h
      omega
    . rintro ⟨hleast, ha, hb, hd, he⟩
      have hnat : a.toNat % 8 * 262144 + b.toNat % 64 * 4096 + d.toNat % 64 * 64 + e.toNat % 64
          = c.toNat := by
        omega
      rw [hnat, char?_toNat hleast]
  . simp only [reduceCtorEq, false_iff]
    omega

/-!
## Characters as bytes
-/

theorem next?_one {c : Char} (h : c.toNat < 0x80) (ps : List Piece) :
    next? (byte (UInt8.ofNat c.toNat) :: ps) = some (c, ps) := by
  have htoNat : (UInt8.ofNat c.toNat).toNat = c.toNat := by
    rw [UInt8.toNat_ofNat']
    omega
  simp only [next?, htoNat]
  rw [if_pos h, Char.ofNat_toNat]

theorem next?_two {a b : UInt8} {c : Char} (h : twoByteChar? a b = some c) (ps : List Piece) :
    next? (byte a :: byte b :: ps) = some (c, ps) := by
  have hbytes := twoByteChar?_eq_some_iff.1 h
  simp only [next?]
  rw [if_neg (by omega), h]

theorem next?_three {a b d : UInt8} {c : Char} (h : threeByteChar? a b d = some c)
    (ps : List Piece) : next? (byte a :: byte b :: byte d :: ps) = some (c, ps) := by
  have hbytes := threeByteChar?_eq_some_iff.1 h
  -- The first byte does not begin a shorter sequence.
  have htwo : twoByteChar? a b = none := by
    unfold twoByteChar?
    rw [if_neg]
    omega
  simp only [next?]
  rw [if_neg (by omega), htwo]
  dsimp only
  rw [h]

theorem next?_four {a b d e : UInt8} {c : Char} (h : fourByteChar? a b d e = some c)
    (ps : List Piece) : next? (byte a :: byte b :: byte d :: byte e :: ps) = some (c, ps) := by
  have hlt := toNat_lt c
  have hbytes := fourByteChar?_eq_some_iff.1 h
  have htwo : twoByteChar? a b = none := by
    unfold twoByteChar?
    rw [if_neg]
    omega
  have hthree : threeByteChar? a b d = none := by
    unfold threeByteChar?
    rw [if_neg]
    omega
  simp only [next?]
  rw [if_neg (by omega), htwo]
  dsimp only
  rw [hthree]
  dsimp only
  rw [h, Option.map_some]

theorem next?_utf8EncodeChar (c : Char) (ps : List Piece) :
    next? ((String.utf8EncodeChar c).map byte ++ ps) = some (c, ps) := by
  have hlt := toNat_lt c
  have hval : c.val.toNat = c.toNat := rfl
  unfold String.utf8EncodeChar
  dsimp only
  rw [hval]
  split
  . apply next?_one
    omega
  . split
    . apply next?_two
      simp only [twoByteChar?_eq_some_iff, UInt8.toNat_ofNat']
      omega
    . split
      . apply next?_three
        simp only [threeByteChar?_eq_some_iff, UInt8.toNat_ofNat']
        omega
      . apply next?_four
        simp only [fourByteChar?_eq_some_iff, UInt8.toNat_ofNat']
        omega

theorem utf8EncodeChar_ofNat {a : UInt8} (h : a.toNat < 0x80) :
    String.utf8EncodeChar (Char.ofNat a.toNat) = [a] := by
  have hval : (Char.ofNat a.toNat).val.toNat = a.toNat := Text.toNat_ofNat (.inl (by omega))
  unfold String.utf8EncodeChar
  dsimp only
  rw [hval, if_pos (by omega), UInt8.ofNat_toNat]

theorem utf8EncodeChar_of_twoByteChar? {a b : UInt8} {c : Char} (h : twoByteChar? a b = some c) :
    String.utf8EncodeChar c = [a, b] := by
  have hval : c.val.toNat = c.toNat := rfl
  obtain ⟨hrange, ha, hb⟩ := twoByteChar?_eq_some_iff.1 h
  have ha : c.toNat / 64 % 32 + 192 = a.toNat := by omega
  unfold String.utf8EncodeChar
  dsimp only
  rw [hval, if_neg (by omega), if_pos (by omega), ha, ← hb]
  simp only [UInt8.ofNat_toNat]

theorem utf8EncodeChar_of_threeByteChar? {a b d : UInt8} {c : Char}
    (h : threeByteChar? a b d = some c) : String.utf8EncodeChar c = [a, b, d] := by
  have hval : c.val.toNat = c.toNat := rfl
  obtain ⟨hrange, ha, hb, hd⟩ := threeByteChar?_eq_some_iff.1 h
  have ha : c.toNat / 4096 % 16 + 224 = a.toNat := by omega
  unfold String.utf8EncodeChar
  dsimp only
  rw [hval, if_neg (by omega), if_neg (by omega), if_pos (by omega), ha, ← hb, ← hd]
  simp only [UInt8.ofNat_toNat]

theorem utf8EncodeChar_of_fourByteChar? {a b d e : UInt8} {c : Char}
    (h : fourByteChar? a b d e = some c) : String.utf8EncodeChar c = [a, b, d, e] := by
  have hlt := toNat_lt c
  have hval : c.val.toNat = c.toNat := rfl
  obtain ⟨hleast, ha, hb, hd, he⟩ := fourByteChar?_eq_some_iff.1 h
  have ha : c.toNat / 262144 % 8 + 240 = a.toNat := by omega
  unfold String.utf8EncodeChar
  dsimp only
  rw [hval, if_neg (by omega), if_neg (by omega), if_neg (by omega), ha, ← hb, ← hd, ← he]
  simp only [UInt8.ofNat_toNat]

/-!
## The ways of spelling a text
-/

/--
The ways in which a character stands in a string: as the bytes of its UTF-8 form, as an escape, or
as the escapes of two surrogates.
-/
inductive CharSpelled (c : Char) : List Piece → Prop where
  | bytes : CharSpelled c ((String.utf8EncodeChar c).map byte)
  | code {u : UInt16} (hu : u.toNat = c.toNat) : CharSpelled c [code u]
  | pair {u v : UInt16} (hu : 0xD800 ≤ u.toNat ∧ u.toNat < 0xDC00)
    (hv : 0xDC00 ≤ v.toNat ∧ v.toNat < 0xE000)
    (hc : c.toNat = 0x10000 + (u.toNat - 0xD800) * 0x400 + (v.toNat - 0xDC00)) :
    CharSpelled c [code u, code v]

/--
Whether pieces spell a text, each character in a way of its own.
-/
def Spelled (s : String) (ps : List Piece) : Prop :=
  Joined CharSpelled s.toList ps

theorem codeChar?_eq_some_iff {u : UInt16} {c : Char} :
    codeChar? u = some c ↔ u.toNat = c.toNat := by
  unfold codeChar?
  constructor
  . intro h
    exact (toNat_of_char? h).2.symm
  . intro h
    rw [h, char?_toNat (Nat.zero_le _)]

theorem codeChar?_eq_none {u : UInt16} (h : 0xD800 ≤ u.toNat ∧ u.toNat < 0xE000) :
    codeChar? u = none := by
  unfold codeChar? char?
  rw [if_neg]
  rintro ⟨-, hvalid | hvalid⟩ <;> omega

theorem pairChar?_eq_some_iff {u v : UInt16} {c : Char} :
    pairChar? u v = some c ↔
      (0xD800 ≤ u.toNat ∧ u.toNat < 0xDC00) ∧ (0xDC00 ≤ v.toNat ∧ v.toNat < 0xE000)
        ∧ c.toNat = 0x10000 + (u.toNat - 0xD800) * 0x400 + (v.toNat - 0xDC00) := by
  unfold pairChar?
  split
  . next hpair =>
    constructor
    . intro h
      have := (toNat_of_char? h).2
      omega
    . rintro ⟨hu, hv, hc⟩
      have hnat : 0x10000 + u.toNat % 1024 * 1024 + v.toNat % 1024 = c.toNat := by omega
      rw [hnat, char?_toNat (by omega)]
  . next hpair =>
    simp only [reduceCtorEq, false_iff]
    omega

theorem CharSpelled.next? {c : Char} {ps : List Piece} (h : CharSpelled c ps) (qs : List Piece) :
    next? (ps ++ qs) = some (c, qs) := by
  cases h with
  | bytes => apply next?_utf8EncodeChar
  | code hu =>
    simp only [List.singleton_append, Piece.next?]
    rw [codeChar?_eq_some_iff.2 hu]
  | pair hu hv hc =>
    simp only [List.cons_append, List.nil_append, Piece.next?]
    rw [codeChar?_eq_none (by omega)]
    dsimp only
    rw [pairChar?_eq_some_iff.2 ⟨hu, hv, hc⟩, Option.map_some]

theorem exists_of_next? {ps rest : List Piece} {c : Char} (h : next? ps = some (c, rest)) :
    ∃ qs, CharSpelled c qs ∧ ps = qs ++ rest := by
  have hbytes {bs : Bytes} {ps : List Piece} (hencode : String.utf8EncodeChar c = bs)
      (hps : ps = bs.map byte ++ rest) : ∃ qs, CharSpelled c qs ∧ ps = qs ++ rest := by
    rw [hps, ← hencode]
    exact ⟨_, .bytes, rfl⟩
  unfold Piece.next? at h
  split at h
  . cases h
  . next u ps =>
    split at h
    . next c' hc =>
      cases h
      exact ⟨_, .code (codeChar?_eq_some_iff.1 hc), rfl⟩
    . next v ps _ =>
      obtain ⟨c', hc, heq⟩ := Option.map_eq_some_iff.1 h
      cases heq
      obtain ⟨hu, hv, hc⟩ := pairChar?_eq_some_iff.1 hc
      exact ⟨_, .pair hu hv hc, rfl⟩
    . cases h
  . next a ps =>
    split at h
    . next ha =>
      cases h
      apply hbytes (utf8EncodeChar_ofNat ha) rfl
    . split at h
      . next b ps =>
        split at h
        . next c' hc =>
          cases h
          apply hbytes (utf8EncodeChar_of_twoByteChar? hc) rfl
        . next d ps _ =>
          split at h
          . next c' hc =>
            cases h
            apply hbytes (utf8EncodeChar_of_threeByteChar? hc) rfl
          . next e ps _ =>
            obtain ⟨c', hc, heq⟩ := Option.map_eq_some_iff.1 h
            cases heq
            apply hbytes (utf8EncodeChar_of_fourByteChar? hc) rfl
          . cases h
        . cases h
      . cases h

theorem charSpelled_ofChar (c : Char) : CharSpelled c (ofChar c) := by
  unfold ofChar
  split
  . next hescape =>
    have hlt : c.toNat < 0x80 := by
      rcases hescape with rfl | rfl | hcontrol
      . decide
      . decide
      . omega
    apply CharSpelled.code
    rw [UInt16.toNat_ofNat']
    omega
  . exact .bytes

theorem spelled_ofString (s : String) : Spelled s (ofString s) :=
  .flatMap fun c _ => charSpelled_ofChar c

theorem chars?_nil : chars? [] = some [] := by
  unfold chars?
  rfl

theorem chars?_of_next? {ps rest : List Piece} {c : Char} (h : Piece.next? ps = some (c, rest)) :
    chars? ps = (chars? rest).map (c :: ·) := by
  cases ps with
  | nil => cases h
  | cons p ps =>
    rw [chars?, List.isEmpty_cons, if_neg Bool.false_ne_true]
    split
    . next hnone =>
      rw [h] at hnone
      cases hnone
    . next hsome =>
      rw [h] at hsome
      cases hsome
      rfl

theorem exists_of_chars? {ps : List Piece} {cs : List Char} (h : chars? ps = some cs) :
    ps = [] ∧ cs = [] ∨ ∃ c rest ds, Piece.next? ps = some (c, rest) ∧ chars? rest = some ds
      ∧ cs = c :: ds := by
  rw [chars?] at h
  split at h
  . next hempty =>
    cases h
    exact .inl ⟨List.isEmpty_iff.1 hempty, rfl⟩
  . split at h
    . cases h
    . next c rest hnext =>
      obtain ⟨ds, hds, rfl⟩ := Option.map_eq_some_iff.1 h
      exact .inr ⟨c, rest, ds, hnext, hds, rfl⟩

theorem chars?_eq_some_iff {ps : List Piece} {cs : List Char} :
    chars? ps = some cs ↔ Joined CharSpelled cs ps := by
  constructor
  . intro h
    induction cs generalizing ps with
    | nil =>
      obtain ⟨rfl, -⟩ | ⟨c, rest, ds, -, -, heq⟩ := exists_of_chars? h
      . exact .nil
      . cases heq
    | cons c cs ih =>
      obtain ⟨-, heq⟩ | ⟨d, rest, ds, hnext, hrest, heq⟩ := exists_of_chars? h
      . cases heq
      . cases heq
        obtain ⟨qs, hc, rfl⟩ := exists_of_next? hnext
        exact .cons hc (ih hrest)
  . intro h
    induction h with
    | nil => apply chars?_nil
    | cons hc _ ih => rw [chars?_of_next? (hc.next? _), ih, Option.map_some]

/--
Pieces are read as the texts that they spell.
-/
theorem text?_eq_some_iff {ps : List Piece} {s : String} : text? ps = some s ↔ Spelled s ps := by
  unfold text? Spelled
  rw [Option.map_eq_some_iff, ← chars?_eq_some_iff]
  constructor
  . rintro ⟨cs, hcs, rfl⟩
    rw [hcs, String.toList_ofList]
  . intro h
    exact ⟨s.toList, h, String.ofList_toList⟩

theorem text?_ofString (s : String) : text? (ofString s) = some s :=
  text?_eq_some_iff.2 (spelled_ofString s)

/-!
## The ways of writing pieces
-/

/--
A digit of base sixteen as a capital or a small letter, or one of base ten.
-/
def HexWritten (n : Nat) (b : UInt8) : Prop :=
  n < 16 ∧ (b = Bytes.ofChar (Hexadecimal.digit n) ∨ b = Bytes.ofChar (Hexadecimal.digit n).toUpper)

instance (n : Nat) (b : UInt8) : Decidable (HexWritten n b) :=
  inferInstanceAs (Decidable (_ ∧ _))

def Readable : Piece → Prop
  | byte b => b ≠ Bytes.ofChar '"' ∧ b ≠ Bytes.ofChar '\\' ∧ 0x20 ≤ b.toNat
  | code _ => True

/--
The ways of writing a piece. A byte stands for itself unless it is a quotation mark, a backslash or
a control character. A code unit is escaped by a letter, if there is one for it, or in base sixteen.
-/
inductive Written : Piece → Bytes → Prop where
  | byte {b : UInt8} (hb : (byte b).Readable) : Written (byte b) [b]
  | short {letter : Char} {u : UInt16} (hletter : (letter, u) ∈ shortEscapes) :
    Written (code u) [Bytes.ofChar '\\', Bytes.ofChar letter]
  | long {u : UInt16} {b₁ b₂ b₃ b₄ : UInt8} (h₁ : HexWritten (u.toNat / 4096) b₁)
    (h₂ : HexWritten (u.toNat / 256 % 16) b₂) (h₃ : HexWritten (u.toNat / 16 % 16) b₃)
    (h₄ : HexWritten (u.toNat % 16) b₄) :
    Written (code u) [Bytes.ofChar '\\', Bytes.ofChar 'u', b₁, b₂, b₃, b₄]

/-!
## A piece is written in one of these ways
-/

theorem toNat_of_mem_utf8EncodeChar {c : Char} {b : UInt8} (hb : b ∈ String.utf8EncodeChar c) :
    c.toNat < 0x80 ∧ b.toNat = c.toNat ∨ 0x80 ≤ b.toNat := by
  have hlt := toNat_lt c
  have hval : c.val.toNat = c.toNat := rfl
  unfold String.utf8EncodeChar at hb
  dsimp only at hb
  rw [hval] at hb
  split at hb
  . left
    rw [List.mem_singleton.1 hb, UInt8.toNat_ofNat']
    omega
  . right
    split at hb
    . simp only [List.mem_cons, List.not_mem_nil, or_false] at hb
      rcases hb with rfl | rfl <;> rw [UInt8.toNat_ofNat'] <;> omega
    . split at hb
      . simp only [List.mem_cons, List.not_mem_nil, or_false] at hb
        rcases hb with rfl | rfl | rfl <;> rw [UInt8.toNat_ofNat'] <;> omega
      . simp only [List.mem_cons, List.not_mem_nil, or_false] at hb
        rcases hb with rfl | rfl | rfl | rfl <;> rw [UInt8.toNat_ofNat'] <;> omega

theorem readable_ofChar (c : Char) : ∀ p ∈ ofChar c, p.Readable := by
  intro p hp
  unfold ofChar at hp
  split at hp
  . rw [List.mem_singleton.1 hp]
    trivial
  . next hplain =>
    obtain ⟨b, hb, rfl⟩ := List.mem_map.1 hp
    -- The quotation mark, the backslash and the control characters are escaped.
    have hne : c.toNat ≠ 34 ∧ c.toNat ≠ 92 ∧ 32 ≤ c.toNat := by
      refine ⟨?_, ?_, ?_⟩
      . intro hquote
        apply hplain (.inl (Char.toNat_inj.1 hquote))
      . intro hbackslash
        apply hplain (.inr (.inl (Char.toNat_inj.1 hbackslash)))
      . omega
    have hquote : (Bytes.ofChar '"').toNat = 34 := rfl
    have hbackslash : (Bytes.ofChar '\\').toNat = 92 := rfl
    have hcases := toNat_of_mem_utf8EncodeChar hb
    refine ⟨?_, ?_, ?_⟩
    . rintro rfl
      omega
    . rintro rfl
      omega
    . omega

theorem readable_ofString (s : String) : ∀ p ∈ ofString s, p.Readable := by
  intro p hp
  obtain ⟨c, -, hc⟩ := List.mem_flatMap.1 hp
  apply readable_ofChar c p hc

theorem hexWritten_digit {n : Nat} (h : n < 16) :
    HexWritten n (Bytes.ofChar (Hexadecimal.digit n)) :=
  ⟨h, .inl rfl⟩

theorem Readable.written {p : Piece} (h : p.Readable) : p.Written p.bytes := by
  cases p with
  | byte b => exact .byte h
  | code u =>
    have hlt := u.toNat_lt
    simp only [bytes]
    split
    . next letter u' hfind =>
      have hmem := List.mem_of_find?_eq_some hfind
      have hu : u' = u := by
        have hpred := List.find?_some hfind
        simp only [decide_eq_true_eq] at hpred
        apply hpred.1
      rw [hu] at hmem
      exact .short hmem
    . exact .long (hexWritten_digit (by omega)) (hexWritten_digit (by omega))
        (hexWritten_digit (by omega)) (hexWritten_digit (by omega))

/-!
## Each way is read
-/

theorem value?_eq_some_iff {n : Nat} {b : UInt8} :
    Hexadecimal.value? b.toNat = some n ↔ HexWritten n b := by
  constructor
  . intro h
    have hall : ∀ k : Fin 256, (Hexadecimal.value? k).all fun n => HexWritten n (UInt8.ofNat k) := by
      decide +kernel
    simpa [h] using hall ⟨b.toNat, b.toNat_lt⟩
  . rintro ⟨hn, hb⟩
    have hall : ∀ n : Fin 16,
        Hexadecimal.value? (Bytes.ofChar (Hexadecimal.digit n)).toNat = some n.val
          ∧ Hexadecimal.value? (Bytes.ofChar (Hexadecimal.digit n).toUpper).toNat = some n.val := by
      decide +kernel
    rcases hb with rfl | rfl
    . exact (hall ⟨n, hn⟩).1
    . exact (hall ⟨n, hn⟩).2

theorem hexCode?_eq_some_iff {b₁ b₂ b₃ b₄ : UInt8} {u : UInt16} :
    hexCode? b₁ b₂ b₃ b₄ = some u ↔
      HexWritten (u.toNat / 4096) b₁ ∧ HexWritten (u.toNat / 256 % 16) b₂
        ∧ HexWritten (u.toNat / 16 % 16) b₃ ∧ HexWritten (u.toNat % 16) b₄ := by
  unfold hexCode?
  simp only [Option.bind_eq_bind, Option.bind_eq_some_iff, value?_eq_some_iff, pure,
    Option.some.injEq]
  constructor
  . rintro ⟨n₁, h₁, n₂, h₂, n₃, h₃, n₄, h₄, rfl⟩
    have hlt := And.intro h₁.1 (And.intro h₂.1 (And.intro h₃.1 h₄.1))
    have htoNat : (UInt16.ofNat (((n₁ * 16 + n₂) * 16 + n₃) * 16 + n₄)).toNat
        = ((n₁ * 16 + n₂) * 16 + n₃) * 16 + n₄ := by
      rw [UInt16.toNat_ofNat']
      omega
    have hdigits : (((n₁ * 16 + n₂) * 16 + n₃) * 16 + n₄) / 4096 = n₁
        ∧ (((n₁ * 16 + n₂) * 16 + n₃) * 16 + n₄) / 256 % 16 = n₂
        ∧ (((n₁ * 16 + n₂) * 16 + n₃) * 16 + n₄) / 16 % 16 = n₃
        ∧ (((n₁ * 16 + n₂) * 16 + n₃) * 16 + n₄) % 16 = n₄ := by
      omega
    rw [htoNat, hdigits.1, hdigits.2.1, hdigits.2.2.1, hdigits.2.2.2]
    exact ⟨h₁, h₂, h₃, h₄⟩
  . rintro ⟨h₁, h₂, h₃, h₄⟩
    refine ⟨_, h₁, _, h₂, _, h₃, _, h₄, ?_⟩
    have hlt := u.toNat_lt
    have hnat : ((u.toNat / 4096 * 16 + u.toNat / 256 % 16) * 16 + u.toNat / 16 % 16) * 16
        + u.toNat % 16 = u.toNat := by
      omega
    rw [hnat, UInt16.ofNat_toNat]

theorem shortEscape?_of_mem : ∀ e ∈ shortEscapes,
    shortEscape? (Bytes.ofChar e.1) = some e.2 ∧ Bytes.ofChar e.1 ≠ Bytes.ofChar 'u' := by
  decide

theorem take?_byte {b : UInt8} (h : (byte b).Readable) (bs : Bytes) :
    take? (b :: bs) = (take? bs).map fun (ps, rest) => (byte b :: ps, rest) := by
  obtain ⟨hquote, hbackslash, hcontrol⟩ := h
  rw [take?.eq_def]
  dsimp only
  rw [if_neg hquote, if_neg hbackslash, if_neg (Nat.not_lt_of_le hcontrol)]
  cases take? bs <;> rfl

theorem take?_short {e : UInt8} {u : UInt16} (he : e ≠ Bytes.ofChar 'u')
    (hu : shortEscape? e = some u) (bs : Bytes) :
    take? (Bytes.ofChar '\\' :: e :: bs)
      = (take? bs).map fun (ps, rest) => (code u :: ps, rest) := by
  rw [take?.eq_def]
  dsimp only
  rw [if_neg (by decide), if_pos rfl, if_neg he, hu]
  cases take? bs <;> rfl

theorem take?_long {h₁ h₂ h₃ h₄ : UInt8} {u : UInt16} (hu : hexCode? h₁ h₂ h₃ h₄ = some u)
    (bs : Bytes) :
    take? (Bytes.ofChar '\\' :: Bytes.ofChar 'u' :: h₁ :: h₂ :: h₃ :: h₄ :: bs)
      = (take? bs).map fun (ps, rest) => (code u :: ps, rest) := by
  rw [take?.eq_def]
  dsimp only
  rw [if_neg (by decide), if_pos rfl, if_pos rfl, hu]
  cases take? bs <;> rfl

theorem Written.take? {p : Piece} {written : Bytes} (h : p.Written written) (bs : Bytes) :
    take? (written ++ bs) = (take? bs).map fun (ps, rest) => (p :: ps, rest) := by
  cases h with
  | byte hb => apply take?_byte hb bs
  | short hletter =>
    obtain ⟨hshort, hne⟩ := shortEscape?_of_mem _ hletter
    apply take?_short hne hshort bs
  | long h₁ h₂ h₃ h₄ => apply take?_long (hexCode?_eq_some_iff.2 ⟨h₁, h₂, h₃, h₄⟩) bs

theorem take?_append {ps : List Piece} {written : Bytes} (h : Joined Written ps written)
    (rest : Bytes) : Piece.take? (written ++ Bytes.ofChar '"' :: rest) = some (ps, rest) := by
  induction h with
  | nil =>
    rw [List.nil_append, take?.eq_def]
    dsimp only
    rw [if_pos rfl]
  | cons hp _ ih => rw [List.append_assoc, hp.take?, ih, Option.map_some]

/-!
## Nothing else is read
-/

theorem written_of_shortEscape? {letter : UInt8} {u : UInt16} (h : shortEscape? letter = some u) :
    (code u).Written [Bytes.ofChar '\\', letter] := by
  unfold shortEscape? at h
  obtain ⟨⟨c, v⟩, hfind, rfl⟩ := Option.map_eq_some_iff.1 h
  have hletter := List.find?_some hfind
  rw [decide_eq_true_eq] at hletter
  subst hletter
  exact .short (List.mem_of_find?_eq_some hfind)

theorem exists_of_take? {bs rest : Bytes} {ps : List Piece} (h : Piece.take? bs = some (ps, rest)) :
    ∃ written, Joined Written ps written ∧ bs = written ++ Bytes.ofChar '"' :: rest := by
  fun_induction Piece.take? bs generalizing ps rest with
  | case2 bs =>
    cases h
    exact ⟨[], .nil, rfl⟩
  | case4 b₁ b₂ b₃ b₄ bs u qs rest' htake hcode _ ih =>
    cases h
    obtain ⟨written, hwritten, rfl⟩ := ih htake
    obtain ⟨h₁, h₂, h₃, h₄⟩ := hexCode?_eq_some_iff.1 hcode
    exact ⟨_, .cons (.long h₁ h₂ h₃ h₄) hwritten, rfl⟩
  | case7 letter bs _ u qs rest' htake hletter _ ih =>
    cases h
    obtain ⟨written, hwritten, rfl⟩ := ih htake
    exact ⟨_, .cons (written_of_shortEscape? hletter) hwritten, rfl⟩
  | case10 b bs hquote hbackslash hcontrol qs rest' htake ih =>
    cases h
    obtain ⟨written, hwritten, rfl⟩ := ih htake
    exact ⟨_, .cons (.byte ⟨hquote, hbackslash, Nat.le_of_not_lt hcontrol⟩) hwritten, rfl⟩
  | _ => cases h

end Piece

end Metering.Json
