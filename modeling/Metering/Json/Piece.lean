import Metering.Bytes
import Metering.Hexadecimal

/-!
This module contains the contents of JSON strings in the form in which they are written, as a list
of bytes and escapes, and their relation to texts.

That a string is written correctly says only where its escapes begin and end. Whether it stands for
a text is a question of its own: its bytes have to be UTF-8 and its escaped surrogates have to come
in pairs.
-/

namespace Metering.Json

inductive Piece where
  | byte (b : UInt8)
  | code (u : UInt16)
  deriving DecidableEq

namespace Piece

def shortEscapes : List (Char × UInt16) :=
  [('"', 0x22), ('\\', 0x5C), ('/', 0x2F), ('b', 0x08), ('f', 0x0C), ('n', 0x0A), ('r', 0x0D),
    ('t', 0x09)]

/-!
## Writing
-/

/--
A piece as it is written. A code unit with a short escape gets it, the solidus apart, which is
never escaped.
-/
def bytes : Piece → Bytes
  | byte b => [b]
  | code u =>
    match shortEscapes.find? fun e => e.2 = u ∧ e.1 ≠ '/' with
    | some (letter, _) => [Bytes.ofChar '\\', Bytes.ofChar letter]
    | none =>
      let n := u.toNat
      Bytes.ofChar '\\' :: Bytes.ofChar 'u'
        :: [n / 4096, n / 256 % 16, n / 16 % 16, n % 16].map (Bytes.ofChar ∘ Hexadecimal.digit)

/--
The pieces of a character: an escape for a quotation mark, a backslash or a control character, and
the bytes of its UTF-8 form for any other.
-/
def ofChar (c : Char) : List Piece :=
  if c = '"' ∨ c = '\\' ∨ c.toNat < 0x20 then
    [code (UInt16.ofNat c.toNat)]
  else
    (String.utf8EncodeChar c).map byte

def ofString (s : String) : List Piece :=
  s.toList.flatMap ofChar

/-!
## Reading
-/

def hexCode? (a b c d : UInt8) : Option UInt16 := do
  let a ← Hexadecimal.value? a.toNat
  let b ← Hexadecimal.value? b.toNat
  let c ← Hexadecimal.value? c.toNat
  let d ← Hexadecimal.value? d.toNat
  return UInt16.ofNat (((a * 16 + b) * 16 + c) * 16 + d)

def shortEscape? (letter : UInt8) : Option UInt16 :=
  (shortEscapes.find? fun e => Bytes.ofChar e.1 = letter).map (·.2)

def take? : Bytes → Option (List Piece × Bytes)
  | [] => none
  | b :: bs =>
    if b = Bytes.ofChar '"' then
      some ([], bs)
    else if b = Bytes.ofChar '\\' then
      match bs with
      | [] => none
      | e :: bs =>
        if e = Bytes.ofChar 'u' then
          match bs with
          | h₁ :: h₂ :: h₃ :: h₄ :: bs =>
            match hexCode? h₁ h₂ h₃ h₄, take? bs with
            | some u, some (ps, rest) => some (code u :: ps, rest)
            | _, _ => none
          | _ => none
        else
          match shortEscape? e, take? bs with
          | some u, some (ps, rest) => some (code u :: ps, rest)
          | _, _ => none
    else if b.toNat < 0x20 then
      none
    else
      match take? bs with
      | some (ps, rest) => some (byte b :: ps, rest)
      | none => none

theorem length_take? {bs rest : Bytes} {ps : List Piece} (h : take? bs = some (ps, rest)) :
    rest.length < bs.length := by
  fun_induction take? bs generalizing ps rest <;> simp_all <;> grind

def char? (least n : Nat) : Option Char :=
  if least ≤ n ∧ n.isValidChar then some (Char.ofNat n) else none

def isTail (b : UInt8) : Bool :=
  b.toNat / 64 = 2

def codeChar? (u : UInt16) : Option Char :=
  char? 0 u.toNat

def pairChar? (u v : UInt16) : Option Char :=
  if u.toNat / 1024 = 54 ∧ v.toNat / 1024 = 55 then
    char? 0x10000 (0x10000 + u.toNat % 1024 * 1024 + v.toNat % 1024)
  else
    none

def twoByteChar? (a b : UInt8) : Option Char :=
  if a.toNat / 32 = 6 ∧ isTail b then
    char? 0x80 (a.toNat % 32 * 64 + b.toNat % 64)
  else
    none

def threeByteChar? (a b c : UInt8) : Option Char :=
  if a.toNat / 16 = 14 ∧ isTail b ∧ isTail c then
    char? 0x800 (a.toNat % 16 * 4096 + b.toNat % 64 * 64 + c.toNat % 64)
  else
    none

def fourByteChar? (a b c d : UInt8) : Option Char :=
  if a.toNat / 8 = 30 ∧ isTail b ∧ isTail c ∧ isTail d then
    char? 0x10000
      (a.toNat % 8 * 262144 + b.toNat % 64 * 4096 + c.toNat % 64 * 64 + d.toNat % 64)
  else
    none

def next? : List Piece → Option (Char × List Piece)
  | [] => none
  | code u :: ps =>
    match codeChar? u, ps with
    | some c, _ => some (c, ps)
    | none, code v :: ps => (pairChar? u v).map (·, ps)
    | none, _ => none
  | byte a :: ps =>
    if a.toNat < 0x80 then
      some (Char.ofNat a.toNat, ps)
    else
      match ps with
      | byte b :: ps =>
        match twoByteChar? a b, ps with
        | some ch, _ => some (ch, ps)
        | none, byte c :: ps =>
          match threeByteChar? a b c, ps with
          | some ch, _ => some (ch, ps)
          | none, byte d :: ps => (fourByteChar? a b c d).map (·, ps)
          | none, _ => none
        | none, _ => none
      | _ => none

theorem length_next? {ps rest : List Piece} {c : Char} (h : next? ps = some (c, rest)) :
    rest.length < ps.length := by
  unfold next? at h
  repeat' split at h
  all_goals simp_all [Option.map_eq_some_iff] <;> grind

def chars? (ps : List Piece) : Option (List Char) :=
  if ps.isEmpty then
    some []
  else
    match h : next? ps with
    | none => none
    | some (c, rest) =>
      have := length_next? h
      (chars? rest).map (c :: ·)
termination_by ps.length
decreasing_by exact this

def text? (ps : List Piece) : Option String :=
  (chars? ps).map String.ofList

end Piece

end Metering.Json
