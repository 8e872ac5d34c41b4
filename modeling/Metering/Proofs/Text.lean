import Mathlib.Data.List.Forall2
import Mathlib.Data.List.TakeWhile
import Metering.Text.Blank
import Metering.Text.Lowercase

/-!
This module contains that removing blanks finds the text between them, and that a text whose
lower-case form is a word of ASCII letters is that word in another case. The letter k has to be
left out: the lower-case form of the Kelvin sign is one, too.
-/

namespace Metering.Text

/-!
## Blanks
-/

/--
Whether a text is another text with blanks before and after it.
-/
def Padded (core cs : List Char) : Prop :=
  ∃ l r, cs = l ++ core ++ r ∧ l.all isBlank ∧ r.all isBlank

theorem padded_trim (cs : List Char) : Padded (trim cs) cs :=
  eq_append_trim cs

theorem padded_self (cs : List Char) : Padded cs cs :=
  ⟨[], [], (List.append_nil cs).symm, rfl, rfl⟩

theorem trimEnd_append {cs r : List Char} (hr : r.all isBlank) :
    trimEnd (cs ++ r) = trimEnd cs := by
  unfold trimEnd
  rw [List.reverse_append, List.dropWhile_append_of_pos]
  simpa using hr

theorem Padded.trim_eq {core cs : List Char} (h : Padded core cs) : trim cs = trim core := by
  obtain ⟨l, r, rfl, hl, hr⟩ := h
  unfold trim
  rw [List.append_assoc, List.dropWhile_append_of_pos (List.all_eq_true.1 hl),
    List.dropWhile_append]
  split
  . next hempty =>
    rw [List.isEmpty_iff.1 hempty, List.dropWhile_eq_nil_iff.2 (List.all_eq_true.1 hr)]
  . rw [trimEnd_append hr]

theorem trim_eq_of_padded {core cs : List Char} (h : Padded core cs)
    (hcore : ∀ c ∈ core, isBlank c = false) : trim cs = core := by
  rw [h.trim_eq]
  apply trim_eq_self
  . intro c hc
    apply hcore c (List.mem_of_mem_head? hc)
  . intro c hc
    apply hcore c (List.mem_of_mem_getLast? hc)

/-!
## Letters
-/

/--
A small letter of ASCII other than k.
-/
def Plain (d : Char) : Prop :=
  d.isLower ∧ d ≠ 'k'

instance : DecidablePred Plain := fun _ => inferInstanceAs (Decidable (_ ∧ _))

/--
Whether a character is a small letter or its capital.
-/
def SameLetter (c d : Char) : Prop :=
  c = d ∨ c = d.toUpper

instance : DecidableRel SameLetter := fun _ _ => inferInstanceAs (Decidable (_ ∨ _))

theorem Plain.toNat_lt {d : Char} (h : Plain d) : d.toNat < 0x80 := by
  have hle : decide ('a'.val ≤ d.val) && decide (d.val ≤ 'z'.val) := h.1
  rw [Bool.and_eq_true, decide_eq_true_eq, decide_eq_true_eq] at hle
  exact Nat.lt_of_le_of_lt hle.2 (by decide)

theorem forall_of_lt {p : Char → Prop} (h : ∀ n : Fin 0x80, p (Char.ofNat n)) {c : Char}
    (hc : c.toNat < 0x80) : p c := by
  have hp := h ⟨c.toNat, hc⟩
  rwa [Char.ofNat_toNat] at hp

/--
Only the first run of the table is about ASCII.
-/
theorem findSome?_caseRuns_of_lt {n : Nat} (h : n < 0x80) :
    caseRuns.findSome? (·.image? n) = CaseRun.image? ⟨0x41, 0x5A, 1, 0x61⟩ n := by
  have hcons : caseRuns = ⟨0x41, 0x5A, 1, 0x61⟩ :: caseRuns.tail := rfl
  have hfirst : caseRuns.tail.all fun r => decide (0x80 ≤ r.first) := by
    decide +kernel
  have htail : caseRuns.tail.findSome? (·.image? n) = none := by
    rw [List.findSome?_eq_none_iff]
    intro r hr
    have hle := of_decide_eq_true (List.all_eq_true.1 hfirst r hr)
    unfold CaseRun.image?
    rw [if_neg (by omega)]
  rw [hcons, List.findSome?_cons, htail]
  cases CaseRun.image? ⟨0x41, 0x5A, 1, 0x61⟩ n <;> rfl

theorem lower_of_lt {c : Char} (h : c.toNat < 0x80) : lower c = [c.toLower] := by
  have hfirst := forall_of_lt (p := fun c =>
    (CaseRun.image? ⟨0x41, 0x5A, 1, 0x61⟩ c.toNat).elim [c] (fun n => [Char.ofNat n])
      = [c.toLower]) (by decide +kernel) h
  unfold lower
  rw [if_neg (by omega), findSome?_caseRuns_of_lt h, ← hfirst]
  cases CaseRun.image? ⟨0x41, 0x5A, 1, 0x61⟩ c.toNat <;> rfl

theorem toLower_eq_iff {c d : Char} (h : c.toNat < 0x80) (hd : Plain d) :
    c.toLower = d ↔ SameLetter c d := by
  constructor
  . rintro rfl
    exact forall_of_lt (p := fun c => Plain c.toLower → SameLetter c c.toLower)
      (by decide +kernel) h hd
  . have hback := forall_of_lt
      (p := fun d => Plain d → d.toLower = d ∧ d.toUpper.toLower = d) (by decide +kernel)
      hd.toNat_lt hd
    rintro (rfl | rfl)
    . exact hback.1
    . exact hback.2

theorem Plain.toNat_toUpper_lt {d : Char} (h : Plain d) : d.toUpper.toNat < 0x80 :=
  forall_of_lt (p := fun d => d.toUpper.toNat < 0x80) (by decide +kernel) h.toNat_lt

theorem SameLetter.not_blank {c d : Char} (h : SameLetter c d) (hd : Plain d) :
    isBlank c = false := by
  have hblank := forall_of_lt
    (p := fun d => Plain d → isBlank d = false ∧ isBlank d.toUpper = false) (by decide +kernel)
    hd.toNat_lt hd
  rcases h with rfl | rfl
  . exact hblank.1
  . exact hblank.2

theorem not_sameLetter_of_le {c d : Char} (h : 0x80 ≤ c.toNat) (hd : Plain d) :
    ¬SameLetter c d := by
  have hlt := hd.toNat_lt
  have hupper := hd.toNat_toUpper_lt
  rintro (rfl | rfl) <;> omega

theorem toNat_ofNat {n : Nat} (h : n.isValidChar) : (Char.ofNat n).toNat = n := by
  rw [Char.ofNat, dif_pos h]
  rfl

theorem not_plain_ofNat {n : Nat} (h : 0x80 ≤ n ∨ n = 0x6B) : ¬Plain (Char.ofNat n) := by
  rcases h with h | rfl
  . intro hplain
    by_cases hvalid : n.isValidChar
    . have hlt := hplain.toNat_lt
      rw [toNat_ofNat hvalid] at hlt
      omega
    . rw [Char.ofNat, dif_neg hvalid] at hplain
      exact absurd hplain (by decide)
  . decide

theorem image_of_caseRuns {n m : Nat} (h : caseRuns.findSome? (·.image? n) = some m)
    (hn : 0x80 ≤ n) : 0x80 ≤ m ∨ m = 0x6B := by
  have hall : caseRuns.all fun r =>
      r.last < 0x80 ∨ 0x80 ≤ r.target ∨ r.first = r.last ∧ r.target = 0x6B := by
    decide +kernel
  obtain ⟨r, hmem, himage⟩ := List.exists_of_findSome?_eq_some h
  unfold CaseRun.image? at himage
  split at himage
  . cases himage
    have := of_decide_eq_true (List.all_eq_true.1 hall r hmem)
    omega
  . cases himage

/--
The lower-case form of a character beyond ASCII is never made of plain letters alone.
-/
theorem exists_not_plain_lower {c : Char} (h : 0x80 ≤ c.toNat) :
    ∃ d ∈ lower c, ¬Plain d := by
  unfold lower
  split
  . exact ⟨'\u0307', by simp, by decide⟩
  . split
    . next m hm => exact ⟨_, List.mem_singleton_self _, not_plain_ofNat (image_of_caseRuns hm h)⟩
    . refine ⟨c, List.mem_singleton_self c, ?_⟩
      intro hplain
      have := hplain.toNat_lt
      omega

/--
No text has a word of plain letters as its lower-case form but that word in capital and small
letters.
-/
theorem lowercase_eq_iff {cs ds : List Char} (hds : ∀ d ∈ ds, Plain d) :
    lowercase cs = ds ↔ List.Forall₂ SameLetter cs ds := by
  induction cs generalizing ds with
  | nil => rw [lowercase_nil, List.forall₂_nil_left_iff, eq_comm]
  | cons c cs ih =>
    rw [lowercase_cons]
    by_cases hc : c.toNat < 0x80
    . rw [lower_of_lt hc, List.singleton_append, List.forall₂_cons_left_iff]
      constructor
      . rintro rfl
        simp only [List.forall_mem_cons] at hds
        exact ⟨_, _, (toLower_eq_iff hc hds.1).1 rfl, (ih hds.2).1 rfl, rfl⟩
      . rintro ⟨d, es, hd, hes, rfl⟩
        simp only [List.forall_mem_cons] at hds
        rw [(toLower_eq_iff hc hds.1).2 hd, (ih hds.2).2 hes]
    . have hle : 0x80 ≤ c.toNat := Nat.le_of_not_lt hc
      constructor
      . rintro rfl
        obtain ⟨d, hmem, hd⟩ := exists_not_plain_lower hle
        exact absurd (hds d (List.mem_append_left _ hmem)) hd
      . intro h
        obtain ⟨d, es, hd, hes, rfl⟩ := List.forall₂_cons_left_iff.1 h
        exact absurd hd (not_sameLetter_of_le hle (hds d List.mem_cons_self))

end Metering.Text
