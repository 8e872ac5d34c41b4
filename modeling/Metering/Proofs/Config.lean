import Metering.Config
import Metering.Proofs.Text
import Metering.Proofs.Traversal

/-!
This module contains which texts of the two variables make a configuration, which configuration
they make, and what the error is otherwise.
-/

namespace Metering

/-!
## Numbers
-/

namespace Decimal.Digit

theorem ofChar?_eq_some_iff {c : Char} {d : Digit} : ofChar? c = some d ↔ c = d.char := by
  constructor
  . intro h
    unfold ofChar? at h
    split at h
    . next hc =>
      cases h
      show c = Char.ofNat (48 + (c.toNat - 48))
      rw [Nat.add_sub_cancel' hc.1, Char.ofNat_toNat]
    . cases h
  . rintro rfl
    apply ofChar?_char

theorem mapM_ofChar?_eq_some_iff {cs : List Char} {ds : List Digit} :
    cs.mapM ofChar? = some ds ↔ cs = ds.map char := by
  simp only [mapM_eq_some_iff, ofChar?_eq_some_iff]
  rw [← List.forall₂_map_right_iff (R := Eq), List.forall₂_eq_eq_eq]

theorem char_ne_plus (d : Digit) : d.char ≠ '+' := by
  revert d
  decide

theorem isBlank_char (d : Digit) : Text.isBlank d.char = false := by
  revert d
  decide

end Decimal.Digit

namespace Tally

open Decimal (Digit)

/--
Whether a text spells a count: digits, as many of them zeros as there may be at the beginning, and
at most one plus sign before them.
-/
inductive Spelled (t : Tally) : List Char → Prop where
  | bare {ds : List Digit} : ds ≠ [] → Decimal.value ds = t.toNat → Spelled t (ds.map Digit.char)
  | plus {ds : List Digit} :
    ds ≠ [] → Decimal.value ds = t.toNat → Spelled t ('+' :: ds.map Digit.char)

theorem spelled_text (t : Tally) : t.Spelled (Decimal.text t.toNat).toList := by
  unfold Decimal.text
  rw [String.toList_ofList]
  apply Spelled.bare (Decimal.digits_ne_nil t.toNat) (Decimal.value_digits t.toNat)

theorem ofChars?_of_eq {cs : List Char} {ds : List Digit} (hne : ds ≠ [])
    (heq : (if cs.head? = some '+' then cs.tail else cs) = ds.map Digit.char) :
    ofChars? cs = ofNat? (Decimal.value ds) := by
  have hread : (ds.map Digit.char).mapM Digit.ofChar? = some ds :=
    Digit.mapM_ofChar?_eq_some_iff.2 rfl
  unfold ofChars?
  rw [heq]
  dsimp only
  rw [hread]
  cases ds with
  | nil => exact absurd rfl hne
  | cons d ds => rfl

theorem ofChars?_eq_some_iff {cs : List Char} {t : Tally} :
    ofChars? cs = some t ↔ t.Spelled cs := by
  constructor
  . intro h
    unfold ofChars? at h
    dsimp only at h
    split at h
    . cases h
    . cases h
    . next d ds hread =>
      rw [Digit.mapM_ofChar?_eq_some_iff] at hread
      rw [ofNat?_eq_some_iff] at h
      split at hread
      . next hplus =>
        obtain ⟨cs, rfl⟩ := List.head?_eq_some_iff.1 hplus
        rw [List.tail_cons] at hread
        rw [hread]
        apply Spelled.plus (List.cons_ne_nil d ds) h
      . rw [hread]
        apply Spelled.bare (List.cons_ne_nil d ds) h
  . rintro (⟨hne, hvalue⟩ | ⟨hne, hvalue⟩)
    . next ds =>
      rw [ofChars?_of_eq hne, ofNat?_eq_some_iff, hvalue]
      rw [if_neg]
      cases ds with
      | nil => exact absurd rfl hne
      | cons d ds => simpa using Digit.char_ne_plus d
    . rw [ofChars?_of_eq hne (if_pos rfl), ofNat?_eq_some_iff, hvalue]

theorem Spelled.not_blank {t : Tally} {cs : List Char} (h : t.Spelled cs) :
    ∀ c ∈ cs, Text.isBlank c = false := by
  have hdigits : ∀ ds : List Digit, ∀ c ∈ ds.map Digit.char, Text.isBlank c = false := by
    intro ds c hc
    obtain ⟨d, -, rfl⟩ := List.mem_map.1 hc
    apply Digit.isBlank_char
  cases h with
  | bare => apply hdigits
  | plus =>
    rw [List.forall_mem_cons]
    exact ⟨by decide, hdigits _⟩

end Tally

/-!
## Names of levels
-/

namespace Level

/--
Whether a text is the name of a level in capital and small letters of ASCII.
-/
def Spelled (l : Level) (cs : List Char) : Prop :=
  List.Forall₂ Text.SameLetter cs l.name.toList

theorem plain_name (l : Level) : ∀ d ∈ l.name.toList, Text.Plain d := by
  have hall : l.name.toList.all fun d => Text.Plain d := by
    cases l <;> decide
  simpa using hall

theorem spelled_name (l : Level) : l.Spelled l.name.toList :=
  List.forall₂_same.2 fun _ _ => .inl rfl

theorem ofText?_eq_some_iff {s : String} {l : Level} :
    ofText? s = some l ↔ l.Spelled (Text.trim s.toList) := by
  unfold ofText? Spelled
  rw [ofName?_eq_some_iff, ← Text.lowercase_eq_iff l.plain_name]
  constructor
  . intro h
    rw [← h, String.toList_ofList]
  . intro h
    rw [h, String.ofList_toList]

theorem Spelled.not_blank {l : Level} {cs : List Char} (h : l.Spelled cs) :
    ∀ c ∈ cs, Text.isBlank c = false := by
  have hplain := l.plain_name
  unfold Spelled at h
  generalize l.name.toList = ds at h hplain
  induction h with
  | nil => simp
  | cons hletter _ ih =>
    rw [List.forall_mem_cons] at hplain ⊢
    exact ⟨hletter.not_blank hplain.1, ih hplain.2⟩

end Level

/-!
## The two variables
-/

namespace Config

/--
The threshold that goes with what the variable is set to.
-/
inductive ThresholdOf : Option String → Tally → Prop where
  | unset : ThresholdOf none standard.threshold
  | set {raw : String} {core : List Char} {t : Tally} :
    Text.Padded core raw.toList → t.Spelled core → ThresholdOf (some raw) t

/--
The name of the level that goes with what the variable is set to.
-/
inductive LevelOf : Option String → String → Prop where
  | unset : LevelOf none standard.logLevel
  | set {raw : String} {core : List Char} {l : Level} :
    Text.Padded core raw.toList → l.Spelled core → LevelOf (some raw) l.name

theorem thresholdOf_some_iff {raw : String} {t : Tally} :
    ThresholdOf (some raw) t ↔ Tally.ofChars? (Text.trim raw.toList) = some t := by
  rw [Tally.ofChars?_eq_some_iff]
  constructor
  . rintro (_ | ⟨hpad, ht⟩)
    rwa [Text.trim_eq_of_padded hpad ht.not_blank]
  . apply ThresholdOf.set (Text.padded_trim raw.toList)

theorem levelOf_some_iff {raw name : String} :
    LevelOf (some raw) name ↔ ∃ l, Level.ofText? raw = some l ∧ l.name = name := by
  constructor
  . rintro (_ | ⟨hpad, hl⟩)
    refine ⟨_, Level.ofText?_eq_some_iff.2 ?_, rfl⟩
    rwa [Text.trim_eq_of_padded hpad hl.not_blank]
  . rintro ⟨l, hl, rfl⟩
    apply LevelOf.set (Text.padded_trim raw.toList) (Level.ofText?_eq_some_iff.1 hl)

theorem readThreshold_eq_ok_iff {v : Option String} {t : Tally} :
    readThreshold v = .ok t ↔ ThresholdOf v t := by
  cases v with
  | none =>
    constructor
    . rintro ⟨⟩
      exact .unset
    . rintro ⟨⟩
      rfl
  | some raw =>
    rw [thresholdOf_some_iff, readThreshold]
    cases Tally.ofChars? (Text.trim raw.toList) <;> simp

theorem readLevel_eq_ok_iff {v : Option String} {name : String} :
    readLevel v = .ok name ↔ LevelOf v name := by
  cases v with
  | none =>
    constructor
    . rintro ⟨⟩
      exact .unset
    . rintro ⟨⟩
      rfl
  | some raw =>
    rw [levelOf_some_iff, readLevel]
    cases Level.ofText? raw <;> simp

theorem readThreshold_eq_error_iff {v : Option String} {e : ConfigError} :
    readThreshold v = .error e
      ↔ (¬∃ t, ThresholdOf v t) ∧ ∃ raw, v = some raw ∧ e = .threshold raw := by
  simp only [← readThreshold_eq_ok_iff]
  cases v with
  | none => simp [readThreshold]
  | some raw =>
    rw [readThreshold]
    cases Tally.ofChars? (Text.trim raw.toList) <;> simp [eq_comm]

theorem readLevel_eq_error_iff {v : Option String} {e : ConfigError} :
    readLevel v = .error e ↔ (¬∃ name, LevelOf v name) ∧ ∃ raw, v = some raw ∧ e = .level raw := by
  simp only [← readLevel_eq_ok_iff]
  cases v with
  | none => simp [readLevel]
  | some raw =>
    rw [readLevel]
    cases Level.ofText? raw <;> simp [eq_comm]

theorem LevelOf.eq_name {v : Option String} {name : String} (h : LevelOf v name) :
    ∃ l : Level, name = l.name := by
  cases h with
  | unset => exact ⟨.info, rfl⟩
  | set => exact ⟨_, rfl⟩

theorem validate_of_name {c : Config} {l : Level} (h : c.logLevel = l.name) :
    c.validate = .ok () := by
  unfold validate
  rw [h, Level.ofName?_name]
  rfl

theorem LevelOf.validate {v : Option String} {name : String} (h : LevelOf v name) (t : Tally) :
    Config.validate ⟨t, name⟩ = .ok () := by
  obtain ⟨l, rfl⟩ := h.eq_name
  exact validate_of_name rfl

theorem LevelOf.again {v : Option String} {name : String} (h : LevelOf v name) :
    LevelOf (some name) name := by
  obtain ⟨l, rfl⟩ := h.eq_name
  exact .set (Text.padded_self _) l.spelled_name

theorem thresholdOf_text (t : Tally) : ThresholdOf (some (Decimal.text t.toNat)) t :=
  .set (Text.padded_self _) t.spelled_text

/-!
## The whole configuration
-/

variable {lookup : String → Option String}

/--
What is read passes the validation, which therefore decides nothing.
-/
theorem ofLookup_eq (lookup : String → Option String) :
    ofLookup lookup
      = match readThreshold (lookup thresholdVariable), readLevel (lookup levelVariable) with
        | .ok threshold, .ok logLevel => .ok ⟨threshold, logLevel⟩
        | .ok _, .error e => .error e
        | .error e, _ => .error e := by
  unfold ofLookup
  cases readThreshold (lookup thresholdVariable) with
  | error e => rfl
  | ok t =>
    cases hlevel : readLevel (lookup levelVariable) with
    | error e => rfl
    | ok name =>
      have hvalid := (readLevel_eq_ok_iff.1 hlevel).validate t
      simp only [bind, Except.bind, hvalid]
      rfl

theorem ofLookup_eq_ok_iff {c : Config} :
    ofLookup lookup = .ok c
      ↔ ThresholdOf (lookup thresholdVariable) c.threshold
        ∧ LevelOf (lookup levelVariable) c.logLevel := by
  obtain ⟨t, name⟩ := c
  rw [ofLookup_eq, ← readThreshold_eq_ok_iff, ← readLevel_eq_ok_iff]
  cases readThreshold (lookup thresholdVariable) <;> cases readLevel (lookup levelVariable) <;> simp

theorem ofLookup_eq_error_iff {e : ConfigError} :
    ofLookup lookup = .error e
      ↔ readThreshold (lookup thresholdVariable) = .error e
        ∨ (∃ t, ThresholdOf (lookup thresholdVariable) t)
          ∧ readLevel (lookup levelVariable) = .error e := by
  simp only [ofLookup_eq, ← readThreshold_eq_ok_iff]
  cases readThreshold (lookup thresholdVariable) <;> cases readLevel (lookup levelVariable) <;> simp

/--
A configuration is read exactly when what each variable is set to, if anything, is a number or the
name of a level between blanks. It is the one which these texts spell, it passes the validation,
and its own texts are read as the same configuration. Otherwise the error names the threshold, and
it names the level only if there is nothing wrong with the threshold.
-/
theorem read_exactly (lookup : String → Option String) :
    ((∃ c, ofLookup lookup = .ok c)
      ↔ (∃ t, ThresholdOf (lookup thresholdVariable) t)
        ∧ ∃ name, LevelOf (lookup levelVariable) name)
      ∧ (∀ c, ofLookup lookup = .ok c
        ↔ ThresholdOf (lookup thresholdVariable) c.threshold
          ∧ LevelOf (lookup levelVariable) c.logLevel)
      ∧ (∀ c, ofLookup lookup = .ok c →
        c.validate = .ok ()
          ∧ ∀ again : String → Option String,
            again thresholdVariable = some (Decimal.text c.threshold.toNat) →
            again levelVariable = some c.logLevel → ofLookup again = .ok c)
      ∧ (∀ e, ofLookup lookup = .error e
        ↔ (¬∃ t, ThresholdOf (lookup thresholdVariable) t)
            ∧ (∃ raw, lookup thresholdVariable = some raw ∧ e = .threshold raw)
          ∨ (∃ t, ThresholdOf (lookup thresholdVariable) t)
            ∧ (¬∃ name, LevelOf (lookup levelVariable) name)
            ∧ ∃ raw, lookup levelVariable = some raw ∧ e = .level raw) := by
  refine ⟨?_, fun _ => ofLookup_eq_ok_iff, ?_, ?_⟩
  . simp only [ofLookup_eq_ok_iff]
    constructor
    . rintro ⟨c, ht, hl⟩
      exact ⟨⟨_, ht⟩, _, hl⟩
    . rintro ⟨⟨t, ht⟩, name, hl⟩
      exact ⟨⟨t, name⟩, ht, hl⟩
  . intro c hc
    obtain ⟨-, hl⟩ := ofLookup_eq_ok_iff.1 hc
    refine ⟨hl.validate c.threshold, ?_⟩
    intro again hthreshold hlevel
    rw [ofLookup_eq_ok_iff, hthreshold, hlevel]
    exact ⟨thresholdOf_text c.threshold, hl.again⟩
  . intro e
    rw [ofLookup_eq_error_iff, readThreshold_eq_error_iff, readLevel_eq_error_iff]

theorem read_exactly_padded :
    ofLookup (fun name => if name = thresholdVariable then some " +0025 " else some "\tDeBuG")
      = .ok ⟨25, "debug"⟩ := by
  have hthreshold : ThresholdOf (some " +0025 ") 25 :=
    .set ⟨[' '], [' '], rfl, rfl, rfl⟩
      (.plus (List.cons_ne_nil 0 [0, 2, 5]) (by decide))
  have hletters : Level.debug.Spelled ['D', 'e', 'B', 'u', 'G'] := by
    unfold Level.Spelled
    decide
  have hlevel : LevelOf (some "\tDeBuG") "debug" :=
    .set ⟨['\t'], [], rfl, rfl, rfl⟩ hletters
  exact ((read_exactly _).2.1 ⟨25, "debug"⟩).2 ⟨hthreshold, hlevel⟩

end Config

end Metering
