/-!
This module contains the bytes of texts: UTF-8 for any text, and one byte a character for words of
ASCII.
-/

namespace Metering

abbrev Bytes := List UInt8

namespace Bytes

def ofString (s : String) : Bytes :=
  s.toList.flatMap String.utf8EncodeChar

def ofChar (c : Char) : UInt8 :=
  UInt8.ofNat c.toNat

def ascii (cs : List Char) : Bytes :=
  cs.map ofChar

def after? : (word : Bytes) → Bytes → Option Bytes
  | [], bs => some bs
  | _ :: _, [] => none
  | w :: ws, b :: bs => if w = b then after? ws bs else none

theorem eq_append_of_after? {word bs rest : Bytes} (h : after? word bs = some rest) :
    bs = word ++ rest := by
  induction word generalizing bs with
  | nil =>
    cases h
    rfl
  | cons w ws ih =>
    cases bs with
    | nil => cases h
    | cons b bs =>
      simp only [after?] at h
      split at h
      . rename_i hw
        rw [hw, List.cons_append, ih h]
      . cases h

end Bytes

end Metering
