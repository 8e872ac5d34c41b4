import Metering.Decimal.Numeral
import Metering.Json.Piece

/-!
This module contains the tokens of JSON and how a byte sequence is cut into them.

A numeral and the contents of a string are kept as they are written: whether a numeral is small
enough or a string is a text is asked only where the value is used.
-/

namespace Metering.Json

open Metering.Decimal

inductive Token where
  | openBracket
  | closeBracket
  | openBrace
  | closeBrace
  | comma
  | colon
  | null
  | bool (b : Bool)
  | number (n : Numeral)
  | string (ps : List Piece)
  deriving DecidableEq

namespace Token

def isSpace (b : UInt8) : Bool :=
  b = 0x20 || b = 0x09 || b = 0x0A || b = 0x0D

def words : List (List Char × Token) :=
  [(['['], openBracket), ([']'], closeBracket), (['\x7b'], openBrace), (['\x7d'], closeBrace),
    ([','], comma), ([':'], colon), (['n', 'u', 'l', 'l'], null),
    (['t', 'r', 'u', 'e'], bool true), (['f', 'a', 'l', 's', 'e'], bool false)]

def bytes : Token → Bytes
  | openBracket => Bytes.ascii ['[']
  | closeBracket => Bytes.ascii [']']
  | openBrace => Bytes.ascii ['\x7b']
  | closeBrace => Bytes.ascii ['\x7d']
  | comma => Bytes.ascii [',']
  | colon => Bytes.ascii [':']
  | null => Bytes.ascii ['n', 'u', 'l', 'l']
  | bool true => Bytes.ascii ['t', 'r', 'u', 'e']
  | bool false => Bytes.ascii ['f', 'a', 'l', 's', 'e']
  | number n => Bytes.ascii (n.chars .plus)
  | string ps => Bytes.ofChar '"' :: ps.flatMap Piece.bytes ++ [Bytes.ofChar '"']

def takeWord? (bs : Bytes) : Option (Token × Bytes) :=
  words.findSome? fun (cs, t) => (Bytes.after? (Bytes.ascii cs) bs).map (t, ·)

def take? : Bytes → Option (Token × Bytes)
  | [] => none
  | b :: bs =>
    if b = Bytes.ofChar '"' then
      (Piece.take? bs).map fun (ps, rest) => (string ps, rest)
    else
      match takeWord? (b :: bs) with
      | some r => some r
      | none => (Numeral.take? (b :: bs)).map fun (n, rest) => (number n, rest)

theorem length_takeWord? {bs rest : Bytes} {t : Token} (h : takeWord? bs = some (t, rest)) :
    rest.length < bs.length := by
  obtain ⟨⟨cs, u⟩, hmem, hafter⟩ := List.exists_of_findSome?_eq_some h
  obtain ⟨r, hr, heq⟩ := Option.map_eq_some_iff.1 hafter
  cases heq
  rw [Bytes.eq_append_of_after? hr, List.length_append]
  have hne : cs ≠ [] := by
    simp only [words, List.mem_cons, Prod.mk.injEq, List.not_mem_nil, or_false] at hmem
    rcases hmem with h | h | h | h | h | h | h | h | h <;> simp [h.1]
  have := List.length_pos_iff.2 hne
  simp only [Bytes.ascii, List.length_map]
  omega

theorem length_take? {bs rest : Bytes} {t : Token} (h : take? bs = some (t, rest)) :
    rest.length < bs.length := by
  cases bs with
  | nil => cases h
  | cons b bs =>
    simp only [take?] at h
    split at h
    . obtain ⟨⟨ps, r⟩, hps, heq⟩ := Option.map_eq_some_iff.1 h
      cases heq
      have := Piece.length_take? hps
      simp only [List.length_cons]
      omega
    . split at h
      . rename_i hword
        cases h
        exact length_takeWord? hword
      . obtain ⟨⟨n, r⟩, hn, heq⟩ := Option.map_eq_some_iff.1 h
        cases heq
        exact Numeral.length_take? hn

def list? (bs : Bytes) : Option (List Token) :=
  go bs []
where
  go (bs : Bytes) (done : List Token) : Option (List Token) :=
    match bs with
    | [] => some done.reverse
    | b :: bs =>
      if isSpace b then
        go bs done
      else
        match h : take? (b :: bs) with
        | none => none
        | some (t, rest) =>
          have := length_take? h
          go rest (t :: done)
  termination_by bs.length
  decreasing_by
    . exact Nat.lt_succ_self _
    . exact this

end Token

end Metering.Json
