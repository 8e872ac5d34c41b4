import Metering.Json.Token
import Metering.Proofs.Decimal.Numeral
import Metering.Proofs.Json.Piece

/-!
This module contains the ways of writing a token, and of writing tokens one after the other. They
are what is read as these tokens, as long as no numeral directly follows another.
-/

namespace Metering.Json.Token

open Metering.Decimal

def WellFormed : Token → Prop
  | number n => n.WellFormed
  | string ps => ∀ p ∈ ps, p.Readable
  | _ => True

/--
The ways of writing a token. There is a fixed word for every token but numerals and strings.
-/
inductive Written : Token → Bytes → Prop where
  | word {cs : List Char} {t : Token} (h : (cs, t) ∈ words) : Written t (Bytes.ascii cs)
  | number {n : Numeral} {bs : Bytes} (h : n.Written bs) : Written (number n) bs
  | string {ps : List Piece} {bs : Bytes} (h : Joined Piece.Written ps bs) :
    Written (string ps) (Bytes.ofChar '"' :: (bs ++ [Bytes.ofChar '"']))

/--
The ways of writing tokens, with any white space before, between and after them.
-/
inductive Spread : List Token → Bytes → Prop where
  | nil {spaces : Bytes} (hspaces : spaces.all isSpace) : Spread [] spaces
  | cons {t : Token} {ts : List Token} {spaces written bs : Bytes} (hspaces : spaces.all isSpace)
    (ht : t.Written written) (hts : Spread ts bs) : Spread (t :: ts) (spaces ++ (written ++ bs))

def IsNumber : Token → Prop
  | number _ => True
  | _ => False

/--
Whether no numeral directly follows another.
-/
def Apart : List Token → Prop
  | [] => True
  | t :: ts => (t.IsNumber → ∀ u ∈ ts.head?, ¬u.IsNumber) ∧ Apart ts

/--
Whether a token can be told from what follows it. Only a numeral could go on.
-/
def EndsBefore (rest : Bytes) : Token → Prop
  | number _ => Numeral.Ends rest
  | _ => True

theorem WellFormed.written {t : Token} (h : t.WellFormed) : t.Written t.bytes := by
  cases t with
  | number n => exact .number (Numeral.WellFormed.written h .plus)
  | string ps => exact .string (.flatMap fun p hp => (h p hp).written)
  | bool b => cases b <;> exact .word (by decide)
  | _ => exact .word (by decide)

theorem spread_flatMap_bytes {ts : List Token} (h : ∀ t ∈ ts, t.WellFormed) :
    Spread ts (ts.flatMap bytes) := by
  induction ts with
  | nil => exact .nil rfl
  | cons t ts ih =>
    rw [List.forall_mem_cons] at h
    exact @Spread.cons t ts [] _ _ rfl h.1.written (ih h.2)

/-!
## Each way is read
-/

theorem takeWord?_eq_none {b : UInt8}
    (h : ∀ w ∈ words, w.1.head?.map Bytes.ofChar ≠ some b ∧ w.1 ≠ []) (bs : Bytes) :
    takeWord? (b :: bs) = none := by
  unfold takeWord?
  rw [List.findSome?_eq_none_iff]
  intro w hw
  obtain ⟨hhead, hne⟩ := h w hw
  obtain ⟨cs, t⟩ := w
  cases cs with
  | nil => exact absurd rfl hne
  | cons c cs =>
    have hb : Bytes.ofChar c ≠ b := fun heq => hhead (congrArg some heq)
    simp only [Bytes.ascii, List.map_cons, Bytes.after?, if_neg hb, Option.map_none]

def BeginsNumber (b : UInt8) : Prop :=
  b = Bytes.ofChar '-' ∨ ∃ d : Digit, b = Bytes.ofChar d.char

theorem BeginsNumber.takeWord?_eq_none {b : UInt8} (h : BeginsNumber b) (bs : Bytes) :
    takeWord? (b :: bs) = none := by
  apply Token.takeWord?_eq_none
  cases h with
  | inl hminus =>
    rw [hminus]
    decide
  | inr hdigit =>
    obtain ⟨d, rfl⟩ := hdigit
    revert d
    decide

theorem BeginsNumber.plain {b : UInt8} (h : BeginsNumber b) :
    b ≠ Bytes.ofChar '"' ∧ isSpace b = false := by
  cases h with
  | inl hminus =>
    rw [hminus]
    decide
  | inr hdigit =>
    obtain ⟨d, rfl⟩ := hdigit
    revert d
    decide

theorem exists_cons_number {n : Numeral} {bs : Bytes} (h : n.Written bs) :
    ∃ b cs, bs = b :: cs ∧ BeginsNumber b := by
  obtain ⟨⟨d, ds, hwhole, -⟩, exponent, -, rfl⟩ := h
  rw [hwhole]
  unfold Numeral.minusBytes
  split
  . exact ⟨_, _, rfl, .inl rfl⟩
  . exact ⟨_, _, rfl, .inr ⟨d, rfl⟩⟩

theorem take?_number {n : Numeral} {bs : Bytes} (h : n.Written bs) {rest : Bytes}
    (hends : Numeral.Ends rest) : take? (bs ++ rest) = some (number n, rest) := by
  have hread := Numeral.take?_append h hends
  obtain ⟨b, cs, rfl, hb⟩ := exists_cons_number h
  -- No fixed word and no string begins like a numeral.
  rw [List.cons_append] at hread ⊢
  unfold take?
  dsimp only
  rw [if_neg hb.plain.1, hb.takeWord?_eq_none]
  dsimp only
  rw [hread, Option.map_some]

theorem take?_string {ps : List Piece} {bs : Bytes} (h : Joined Piece.Written ps bs)
    (rest : Bytes) :
    take? (Bytes.ofChar '"' :: (bs ++ [Bytes.ofChar '"']) ++ rest) = some (string ps, rest) := by
  rw [List.cons_append, List.append_assoc, List.singleton_append]
  unfold take?
  dsimp only
  rw [if_pos rfl, Piece.take?_append h, Option.map_some]

theorem take?_word {cs : List Char} {t : Token} (h : (cs, t) ∈ words) (rest : Bytes) :
    take? (Bytes.ascii cs ++ rest) = some (t, rest) := by
  simp only [words, List.mem_cons, Prod.mk.injEq, List.not_mem_nil, or_false] at h
  rcases h with h | h | h | h | h | h | h | h | h <;> obtain ⟨rfl, rfl⟩ := h <;> rfl

theorem take?_append {t : Token} {bs : Bytes} (h : t.Written bs) {rest : Bytes}
    (hends : t.EndsBefore rest) : take? (bs ++ rest) = some (t, rest) := by
  cases h with
  | word h => apply take?_word h
  | number h => apply take?_number h hends
  | string h => apply take?_string h

theorem exists_cons_word {cs : List Char} {t : Token} (h : (cs, t) ∈ words) :
    ∃ b bs, Bytes.ascii cs = b :: bs ∧ isSpace b = false ∧ Numeral.Ends [b] := by
  simp only [words, List.mem_cons, Prod.mk.injEq, List.not_mem_nil, or_false] at h
  rcases h with h | h | h | h | h | h | h | h | h <;> obtain ⟨rfl, rfl⟩ := h <;>
  . refine ⟨_, _, rfl, by decide, ?_⟩
    rintro b ⟨⟩
    decide

theorem exists_cons_written {t : Token} {bs : Bytes} (h : t.Written bs) :
    ∃ b cs, bs = b :: cs ∧ isSpace b = false := by
  cases h with
  | word h =>
    obtain ⟨b, cs, heq, hspace, -⟩ := exists_cons_word h
    exact ⟨b, cs, heq, hspace⟩
  | number h =>
    obtain ⟨b, cs, rfl, hb⟩ := exists_cons_number h
    exact ⟨b, cs, rfl, hb.plain.2⟩
  | string h => exact ⟨_, _, rfl, by decide⟩

theorem go_append {t : Token} {bs : Bytes} (h : t.Written bs) {rest : Bytes}
    (hends : t.EndsBefore rest) (done : List Token) :
    list?.go (bs ++ rest) done = list?.go rest (t :: done) := by
  have htake := take?_append h hends
  obtain ⟨b, cs, rfl, hspace⟩ := exists_cons_written h
  rw [List.cons_append] at htake ⊢
  rw [list?.go]
  -- The token does not begin with white space, so it is taken whole.
  dsimp only
  rw [hspace, if_neg Bool.false_ne_true]
  split
  . next hnone =>
    rw [htake] at hnone
    cases hnone
  . next hsome =>
    rw [htake] at hsome
    cases hsome
    rfl

theorem go_spaces {spaces : Bytes} (h : spaces.all isSpace) (rest : Bytes) (done : List Token) :
    list?.go (spaces ++ rest) done = list?.go rest done := by
  induction spaces with
  | nil => rfl
  | cons b bs ih =>
    rw [List.all_cons, Bool.and_eq_true] at h
    rw [List.cons_append, list?.go]
    dsimp only
    rw [if_pos h.1, ih h.2]

theorem ends_of_isSpace {b : UInt8} (h : isSpace b) (bs : Bytes) : Numeral.Ends (b :: bs) := by
  simp only [isSpace, Bool.or_eq_true, decide_eq_true_eq] at h
  intro c hc
  cases hc
  rcases h with ((h | h) | h) | h <;> subst h <;> decide

theorem Written.ends {t : Token} {bs : Bytes} (h : t.Written bs) (hnumber : ¬t.IsNumber)
    (rest : Bytes) : Numeral.Ends (bs ++ rest) := by
  intro b hb
  cases h with
  | word h =>
    obtain ⟨b, cs, heq, -, hends⟩ := exists_cons_word h
    rw [heq] at hb
    apply hends _ hb
  | number h => exact absurd trivial hnumber
  | string h =>
    cases hb
    decide

/--
Tokens that do not begin with a numeral end one that comes before them.
-/
theorem Spread.ends {ts : List Token} {bs : Bytes} (h : Spread ts bs)
    (hnumber : ∀ t ∈ ts.head?, ¬t.IsNumber) : Numeral.Ends bs := by
  cases h with
  | nil hspaces =>
    cases bs with
    | nil => exact nofun
    | cons b bs => exact ends_of_isSpace (List.all_eq_true.1 hspaces b List.mem_cons_self) bs
  | @cons t ts spaces written bs hspaces ht hts =>
    cases spaces with
    | nil => exact ht.ends (hnumber t rfl) bs
    | cons b spaces =>
      exact ends_of_isSpace (List.all_eq_true.1 hspaces b List.mem_cons_self) _

theorem Spread.go {ts : List Token} {bs : Bytes} (h : Spread ts bs) (hapart : Apart ts)
    (done : List Token) : list?.go bs done = some (done.reverse ++ ts) := by
  induction h generalizing done with
  | @nil spaces hspaces =>
    have hgo := go_spaces hspaces [] done
    rw [List.append_nil] at hgo
    rw [hgo, list?.go, List.append_nil]
  | @cons t ts spaces written bs hspaces ht hts ih =>
    have hends : t.EndsBefore bs := by
      cases t with
      | number n => exact hts.ends (hapart.1 trivial)
      | _ => trivial
    rw [go_spaces hspaces, go_append ht hends, ih hapart.2, List.reverse_cons, List.append_assoc,
      List.singleton_append]

theorem Spread.list? {ts : List Token} {bs : Bytes} (h : Spread ts bs) (hapart : Apart ts) :
    list? bs = some ts :=
  h.go hapart []

/-!
## Nothing else is read
-/

theorem exists_of_take? {bs rest : Bytes} {t : Token} (h : take? bs = some (t, rest)) :
    ∃ written, t.Written written ∧ bs = written ++ rest := by
  cases bs with
  | nil => cases h
  | cons b bs =>
    simp only [take?] at h
    split at h
    . next hquote =>
      obtain ⟨⟨ps, rest'⟩, hps, heq⟩ := Option.map_eq_some_iff.1 h
      cases heq
      obtain ⟨written, hwritten, rfl⟩ := Piece.exists_of_take? hps
      refine ⟨_, .string hwritten, ?_⟩
      rw [hquote, List.cons_append, List.append_assoc, List.singleton_append]
    . split at h
      . next hword =>
        cases h
        obtain ⟨⟨cs, u⟩, hmem, hafter⟩ := List.exists_of_findSome?_eq_some hword
        obtain ⟨rest', hrest, heq⟩ := Option.map_eq_some_iff.1 hafter
        cases heq
        exact ⟨_, .word hmem, Bytes.eq_append_of_after? hrest⟩
      . obtain ⟨⟨n, rest'⟩, hn, heq⟩ := Option.map_eq_some_iff.1 h
        cases heq
        obtain ⟨written, hwritten, hbs⟩ := Numeral.exists_of_take? hn
        exact ⟨written, .number hwritten, hbs⟩

theorem Spread.space {b : UInt8} (hb : isSpace b) {ts : List Token} {bs : Bytes}
    (h : Spread ts bs) : Spread ts (b :: bs) := by
  cases h with
  | nil hspaces =>
    apply Spread.nil
    rw [List.all_cons, hb, hspaces]
    rfl
  | @cons t ts spaces written bs hspaces ht hts =>
    have hall : (b :: spaces).all isSpace := by
      rw [List.all_cons, hb, hspaces]
      rfl
    exact .cons hall ht hts

theorem exists_of_go {bs : Bytes} {done us : List Token} (h : list?.go bs done = some us) :
    ∃ ts, Spread ts bs ∧ us = done.reverse ++ ts := by
  fun_induction list?.go bs done with
  | case1 done =>
    cases h
    exact ⟨[], .nil rfl, (List.append_nil _).symm⟩
  | case2 done b bs hb ih =>
    obtain ⟨ts, hts, rfl⟩ := ih h
    exact ⟨ts, hts.space hb, rfl⟩
  | case3 done b bs hb hnone => cases h
  | case4 done b bs hb t rest htake _ ih =>
    obtain ⟨ts, hts, rfl⟩ := ih h
    obtain ⟨written, hwritten, hbs⟩ := exists_of_take? htake
    refine ⟨t :: ts, ?_, ?_⟩
    . rw [hbs]
      exact @Spread.cons t ts [] _ _ rfl hwritten hts
    . rw [List.reverse_cons, List.append_assoc, List.singleton_append]

theorem spread_of_list? {bs : Bytes} {ts : List Token} (h : list? bs = some ts) : Spread ts bs := by
  obtain ⟨us, hus, rfl⟩ := exists_of_go h
  exact hus

end Metering.Json.Token
