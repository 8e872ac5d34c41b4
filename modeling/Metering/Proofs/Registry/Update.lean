import Metering.Proofs.Metric.Holding
import Metering.Proofs.Registry.Merge

/-!
This module contains when a metric of a registry is changed, into what, and for which reason it is
not. Nothing but that metric is touched, and nothing at all if the change is refused.
-/

namespace Metering

namespace Operation

/--
What comes of a change if there is no bound.
-/
def exact (op : Operation) (n delta : Int64) : Int :=
  match op with
  | increment => n.toInt + delta.toInt
  | decrement => n.toInt - delta.toInt

theorem toInt_apply (op : Operation) (n delta : Int64) :
    (op.apply n delta).toInt = max (-2 ^ 63) (min (op.exact n delta) (2 ^ 63 - 1)) := by
  cases op <;> apply Integer.toInt_clamp

end Operation

/-!
## Changes
-/

/--
An update together with the name that it is for. A metric that is to replace another one brings the
name along.
-/
inductive Change where
  | value (name : String) (v : Value)
  | replace (m : Metric)
  | count (op : Operation) (name : String) (delta : Int64)

namespace Change

def name : Change → String
  | value name _ => name
  | replace m => m.name
  | count _ name _ => name

def update : Change → Update
  | value _ v => .value v
  | replace m => .replace m
  | count op _ delta => .change op delta

/--
What a metric is made into at the time `now`, if it can be.
-/
inductive Sets (now : Int64) (m : Metric) : Change → Metric → Prop where
  | value {name : String} {v : Value} {r : Reading} (hkind : r.kind = m.kind)
    (hstores : m.kind.Stores v r.value) :
    Sets now m (.value name v) ⟨m.name, m.description, r, now⟩
  | replace {m' : Metric} (hkind : m'.kind = m.kind) : Sets now m (.replace m') m'
  | count {op : Operation} {name : String} {n n' delta : Int64} (hn : m.reading = .counter n)
    (hn' : n'.toInt = max (-2 ^ 63) (min (op.exact n delta) (2 ^ 63 - 1))) :
    Sets now m (.count op name delta) ⟨m.name, m.description, .counter n', now⟩

end Change

namespace Metric

variable {now : Int64} {m m' : Metric} {v : Value} {op : Operation} {delta : Int64}
  {e : MetricError}

theorem withValue_eq_ok_iff :
    m.withValue now v = .ok m' ↔
      m'.name = m.name ∧ m'.description = m.description ∧ m'.timestamp = now ∧ m'.kind = m.kind
        ∧ m.kind.Stores v m'.value := by
  rw [withValue_eq_ofParts, ofParts_eq_ok_iff]

theorem withValue_eq_error_iff :
    m.withValue now v = .error e ↔ ¬m.kind.Holds v ∧ e = .invalidValue m.name m.kind v := by
  rw [withValue_eq_ofParts, ofParts_eq_error_iff]

theorem change_eq_ok_iff :
    m.change now op delta = .ok m' ↔
      ∃ n, m.reading = .counter n
        ∧ m' = ⟨m.name, m.description, .counter (op.apply n delta), now⟩ := by
  rw [change_eq]
  cases m.reading <;> simp [eq_comm]

theorem change_eq_error_iff :
    m.change now op delta = .error e ↔
      m.kind ≠ .counter ∧ e = .unsupportedOperation m.name m.kind op := by
  rw [change_eq]
  unfold kind
  cases m.reading <;> simp [Reading.kind, eq_comm]

end Metric

namespace Tracked

/--
Why a change is not made to a metric.
-/
inductive Rejects (t : Tracked) : Change → MetricError → Prop where
  | value {name : String} {v : Value} (h : ¬t.kind.Holds v) :
    Rejects t (.value name v) (.invalidValue name t.kind v)
  | replace {m : Metric} (h : m.kind ≠ t.kind) :
    Rejects t (.replace m) (.typeMismatch m.name t.kind m.kind)
  | count {op : Operation} {name : String} {delta : Int64} (h : t.kind ≠ .counter) :
    Rejects t (.count op name delta) (.unsupportedOperation name t.kind op)

variable {now : Int64} {t : Tracked} {c : Change} {m : Metric} {e : MetricError}

theorem checkCompatible_eq_error_iff :
    t.checkCompatible m = .error e ↔
      m.name ≠ t.name ∧ e = .nameMismatch t.name m.name
        ∨ m.name = t.name ∧ m.kind ≠ t.kind ∧ e = .typeMismatch t.name t.kind m.kind := by
  unfold checkCompatible
  split
  . next hname => simp [hname, eq_comm]
  . next hname =>
    have hname := Decidable.not_not.1 hname
    split <;> simp_all [eq_comm]

theorem updated_eq_ok_iff (hname : c.name = t.name) :
    t.updated now c.update = .ok m ↔ c.Sets now t.current m := by
  cases c with
  | value name v =>
    simp only [Change.update, updated_value, Metric.withValue_eq_ok_iff]
    constructor
    . rintro ⟨hmname, hdescription, htimestamp, hkind, hstores⟩
      obtain ⟨_, _, r, _⟩ := m
      cases hmname
      cases hdescription
      cases htimestamp
      exact .value hkind hstores
    . intro h
      cases h with
      | value hkind hstores => exact ⟨rfl, rfl, rfl, hkind, hstores⟩
  | replace m' =>
    simp only [Change.update, updated_replace, map_eq_ok_iff]
    constructor
    . rintro ⟨_, hcompatible, rfl⟩
      exact .replace (checkCompatible_eq_ok_iff.1 hcompatible).2
    . intro h
      cases h with
      | replace hkind => exact ⟨(), checkCompatible_eq_ok_iff.2 ⟨hname, hkind⟩, rfl⟩
  | count op name delta =>
    simp only [Change.update, updated_change, Metric.change_eq_ok_iff]
    constructor
    . rintro ⟨n, hn, rfl⟩
      exact .count hn (op.toInt_apply n delta)
    . intro h
      cases h with
      | count hn hn' =>
        rw [← op.toInt_apply] at hn'
        exact ⟨_, hn, by rw [Int64.toInt_inj.1 hn']⟩

theorem updated_eq_error_iff (hname : c.name = t.name) :
    t.updated now c.update = .error e ↔ t.Rejects c e := by
  cases c with
  | value name v =>
    simp only [Change.update, updated_value, Metric.withValue_eq_error_iff]
    obtain rfl : name = t.name := hname
    constructor
    . rintro ⟨h, rfl⟩
      exact .value h
    . intro h
      cases h with
      | value h => exact ⟨h, rfl⟩
  | replace m' =>
    simp only [Change.update, updated_replace, map_eq_error_iff, checkCompatible_eq_error_iff]
    have hname : m'.name = t.name := hname
    constructor
    . rintro (⟨hne, -⟩ | ⟨-, hkind, rfl⟩)
      . exact absurd hname hne
      . exact hname ▸ .replace hkind
    . intro h
      cases h with
      | replace hkind => exact .inr ⟨hname, hkind, by rw [hname]⟩
  | count op name delta =>
    simp only [Change.update, updated_change, Metric.change_eq_error_iff]
    obtain rfl : name = t.name := hname
    constructor
    . rintro ⟨h, rfl⟩
      exact .count h
    . intro h
      cases h with
      | count h => exact ⟨h, rfl⟩

theorem advance_eq_iff {t' : Tracked} (hkind : m.kind = t.kind) :
    t.advance m = t' ↔
      t'.current = m ∧ t'.changes.toNat = min (t.changes.toNat + 1) (2 ^ 64 - 1)
        ∧ t'.history =
          if t.kind = .integerGauge ∨ t.kind = .doubleGauge then t.history ++ [t.current.record]
          else t.history := by
  have hchanges : t'.changes = t.changes + 1
      ↔ t'.changes.toNat = min (t.changes.toNat + 1) (2 ^ 64 - 1) := Tally.ext_iff
  rw [eq_comm, Tracked.ext_iff]
  simp only [advance, hkind, Kind.keepsHistory_iff, hchanges]

end Tracked

/-!
## Registries
-/

namespace Registry

/--
Why a registry does not make a change.
-/
inductive Refuses (r : Registry) (c : Change) : MetricError → Prop where
  | notRegistered (h : c.name ∉ r.names) : Refuses r c (.notRegistered c.name)
  | rejects {t : Tracked} {e : MetricError} (ht : r.find? c.name = some t) (h : t.Rejects c e) :
    Refuses r c e

/--
Whether `r'` is `r` with a change made to it at the time `now`, and nothing else.
-/
structure Performs (now : Int64) (c : Change) (r r' : Registry) : Prop where
  names : r'.names = r.names
  others : ∀ name, name ≠ c.name → r'.find? name = r.find? name
  metric : ∃ t t', r.find? c.name = some t ∧ r'.find? c.name = some t'
    ∧ c.Sets now t.current t'.current
    ∧ t'.changes.toNat = min (t.changes.toNat + 1) (2 ^ 64 - 1)
    ∧ t'.history =
      if t.kind = .integerGauge ∨ t.kind = .doubleGauge then t.history ++ [t.current.record]
      else t.history

variable {r r' : Registry} {now : Int64} {c : Change} {e : MetricError}

theorem update_eq_error_iff {name : String} {u : Update} :
    r.update now name u = .error e ↔
      r.find? name = none ∧ e = .notRegistered name
        ∨ ∃ t, r.find? name = some t ∧ t.updated now u = .error e := by
  rw [update_eq]
  cases r.find? name with
  | none => simp [eq_comm]
  | some t => simp [Tracked.apply_eq, map_eq_error_iff]

theorem Sound.update_eq_error_iff (h : r.Sound) :
    r.update now c.name c.update = .error e ↔ r.Refuses c e := by
  rw [Registry.update_eq_error_iff]
  constructor
  . rintro (⟨hnone, rfl⟩ | ⟨t, ht, herror⟩)
    . exact .notRegistered (h.find?_eq_none_iff.1 hnone)
    . exact .rejects ht ((Tracked.updated_eq_error_iff (h.name_eq _ t ht).symm).1 herror)
  . intro h'
    cases h' with
    | notRegistered hnew => exact .inl ⟨h.find?_eq_none_iff.2 hnew, rfl⟩
    | rejects ht hrejects =>
      exact .inr ⟨_, ht, (Tracked.updated_eq_error_iff (h.name_eq _ _ ht).symm).2 hrejects⟩

theorem Sound.update_eq_ok_iff (h : r.Sound) :
    r.update now c.name c.update = .ok r' ↔ r.Performs now c r' := by
  rw [Registry.update_eq_ok_iff]
  simp only [Tracked.apply_eq_ok_iff]
  constructor
  . rintro ⟨t, _, ht, ⟨m, hm, rfl⟩, rfl⟩
    obtain ⟨-, hchanges, hhistory⟩ :=
      (Tracked.advance_eq_iff (Tracked.same_of_updated hm).2).1 (Eq.refl (t.advance m))
    refine ⟨rfl, ?_, t, t.advance m, ht, ?_, ?_, hchanges, hhistory⟩
    . intro name hne
      rw [find?_put, if_neg (Ne.symm hne)]
    . rw [find?_put, if_pos rfl]
    . exact (Tracked.updated_eq_ok_iff (h.name_eq _ t ht).symm).1 hm
  . rintro ⟨hnames, hothers, t, t', ht, ht', hsets, hchanges, hhistory⟩
    have hm := (Tracked.updated_eq_ok_iff (h.name_eq _ t ht).symm).2 hsets
    have hadvance := (Tracked.advance_eq_iff (Tracked.same_of_updated hm).2).2
      ⟨rfl, hchanges, hhistory⟩
    refine ⟨t, t', ht, ⟨t'.current, hm, hadvance⟩, eq_of_find? hnames.symm ?_⟩
    intro name
    rw [find?_put]
    split
    . next heq => rw [← heq, ht']
    . next hne => rw [hothers name (Ne.symm hne)]

end Registry

theorem Registry.perform_eq_error_iff {r r' : Registry} {now : Int64} {name : String} {u : Update}
    {e : MetricError} :
    r.perform now name u = (r', .error e) ↔ r.update now name u = .error e ∧ r' = r := by
  rw [perform_eq]
  cases r.update now name u with
  | ok _ => simp
  | error _ => simp [and_comm, eq_comm]

theorem World.step_update_of_ok {w : World} {i : Nat} {r r' : Registry} {now : Int64}
    {name : String} {u : Update} (hr : w i = some r) (h : r.update now name u = .ok r') (k : Nat) :
    w.step (.update i now name u) k = if k = i then some r' else w k := by
  simp only [step, alter, hr, Registry.fst_perform_of_ok h, Option.map_some]

theorem World.step_update_of_error {w : World} {i : Nat} {r : Registry} {now : Int64}
    {name : String} {u : Update} {e : MetricError} (hr : w i = some r)
    (h : r.update now name u = .error e) : w.step (.update i now name u) = w := by
  funext k
  simp only [step, alter, hr, Registry.fst_perform_of_error h, Option.map_some]
  split
  . next hk => rw [hk, hr]
  . rfl

namespace Registry

variable {r : Registry}

/--
A registry makes a change or says why it does not: the name is not registered, the kind of the
metric does not hold the value, has no such operation, or is not that of the metric that should
replace it. A change that is made touches that metric alone, one that is not touches nothing.
-/
theorem update_exactly (h : r.Reachable) (now : Int64) (c : Change) :
    (∀ e, r.update now c.name c.update = .error e ↔ r.Refuses c e)
      ∧ (∀ r', r.update now c.name c.update = .ok r' ↔ r.Performs now c r')
      ∧ (∀ expected actual, r.update now c.name c.update ≠ .error (.nameMismatch expected actual))
      ∧ (∀ r' e, r.perform now c.name c.update = (r', .error e) ↔ r.Refuses c e ∧ r' = r)
      ∧ (∀ r', r.perform now c.name c.update = (r', .ok ()) ↔ r.Performs now c r')
      ∧ ∀ (w : World) i, w i = some r →
        (∀ e, r.Refuses c e → w.step (.update i now c.name c.update) = w)
          ∧ ∀ r', r.Performs now c r' → ∀ k,
            w.step (.update i now c.name c.update) k = if k = i then some r' else w k := by
  have herror (e : MetricError) : r.update now c.name c.update = .error e ↔ r.Refuses c e :=
    h.sound.update_eq_error_iff
  have hok (r' : Registry) : r.update now c.name c.update = .ok r' ↔ r.Performs now c r' :=
    h.sound.update_eq_ok_iff
  refine ⟨herror, hok, ?_, ?_, ?_, ?_⟩
  . intro expected actual hmismatch
    cases (herror _).1 hmismatch with
    | rejects _ hrejects => cases hrejects
  . intro r' e
    rw [perform_eq_error_iff, herror]
  . intro r'
    rw [← hok]
    exact settled_eq_ok_iff.symm
  . intro w i hr
    exact ⟨fun e he => World.step_update_of_error hr ((herror e).2 he),
      fun r' hr' => World.step_update_of_ok hr ((hok r').2 hr')⟩

/--
A gauge of a registry that is given a whole number and then asked to count.
-/
theorem update_exactly_load :
    let as : List Action :=
      [.create 0, .register 0 (.create 0 .doubleGauge "load" ""),
        .register 0 (.create 0 .counter "hits" "")]
    ∃ r r', World.run as 0 = some r
      ∧ r.update 7 "load" (.value (.integer 4)) = .ok r'
      ∧ r'.find? "load" = some ⟨⟨"load", "", .doubleGauge (Double.ofInt 4), 7⟩, 1, [⟨.double 0, 0⟩]⟩
      ∧ r'.find? "hits" = r.find? "hits"
      ∧ r.update 8 "load" (.change .decrement 1)
        = .error (.unsupportedOperation "load" .doubleGauge .decrement)
      ∧ r.perform 8 "load" (.change .decrement 1)
        = (r, .error (.unsupportedOperation "load" .doubleGauge .decrement))
      ∧ (World.run as).step (.update 0 8 "load" (.change .decrement 1)) = World.run as := by
  intro as
  obtain ⟨r, hr⟩ := Option.isSome_iff_exists.1 (by decide : (World.run as 0).isSome)
  have hload : (World.run as 0).bind (·.find? "load")
      = some ⟨⟨"load", "", .doubleGauge 0, 0⟩, 0, []⟩ := by decide
  rw [hr, Option.bind_some] at hload
  obtain ⟨herror, hok, -⟩ := update_exactly ⟨as, 0, hr⟩ 7 (.value "load" (.integer 4))
  obtain ⟨herror', -, -, hperform, -, hworld⟩ :=
    update_exactly ⟨as, 0, hr⟩ 8 (.count .decrement "load" 1)
  have hrefuses : r.Refuses (.count .decrement "load" 1)
      (.unsupportedOperation "load" .doubleGauge .decrement) := .rejects hload (.count (by decide))
  cases h : r.update 7 "load" (.value (.integer 4)) with
  | error e =>
    cases (herror e).1 h with
    | notRegistered hnew =>
      rw [← (Reachable.sound ⟨as, 0, hr⟩).find?_eq_none_iff] at hnew
      cases hload.symm.trans hnew
    | rejects ht hrejects =>
      cases hload.symm.trans ht
      cases hrejects with
      | value hholds => exact absurd ⟨_, .whole 4⟩ hholds
  | ok r' =>
    obtain ⟨-, hothers, t, t', ht, ht', hsets, hchanges, hhistory⟩ := (hok r').1 h
    cases hload.symm.trans ht
    have hcurrent : t'.current = ⟨"load", "", .doubleGauge (Double.ofInt 4), 7⟩ := by
      generalize t'.current = m at hsets
      cases hsets with
      | @value _ _ s hkind hstores =>
        have hkind : s.kind = .doubleGauge := hkind
        have hvalue : s.value = .double (Double.ofInt 4) := hstores.unique (.whole 4)
        rw [Reading.eq_of_kind_of_value (s := .doubleGauge (Double.ofInt 4)) hkind hvalue]
    have ht'' : t' = ⟨⟨"load", "", .doubleGauge (Double.ofInt 4), 7⟩, 1, [⟨.double 0, 0⟩]⟩ :=
      Tracked.ext hcurrent (Tally.ext hchanges) hhistory
    exact ⟨r, r', hr, h, ht'' ▸ ht', hothers "hits" (by decide), (herror' _).2 hrefuses,
      (hperform r _).2 ⟨hrefuses, rfl⟩, (hworld (World.run as) 0 hr).1 _ hrefuses⟩

end Registry

end Metering
