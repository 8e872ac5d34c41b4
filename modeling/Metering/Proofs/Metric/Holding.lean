import Metering.Metric.Basic

/-!
This module contains which values a metric of each kind holds and as what it stores them, said as a
table and not by the functions that take values in.
-/

namespace Metering

namespace Kind

/--
What a metric of a kind stores for a value that is given to it.
-/
inductive Stores : Kind → Value → Value → Prop where
  | counter (n : Int64) : Stores counter (.integer n) (.integer n)
  | integerGauge (n : Int64) : Stores integerGauge (.integer n) (.integer n)
  | doubleGauge (x : Double) : Stores doubleGauge (.double x) (.double x)
  | whole (n : Int64) : Stores doubleGauge (.integer n) (.double (Double.ofInt n.toInt))
  | nan : Stores doubleGauge (.text "NaN") (.double .nan)
  | infinity : Stores doubleGauge (.text "inf") (.double .infinity)
  | negativeInfinity : Stores doubleGauge (.text "-inf") (.double .negativeInfinity)
  | state (s : String) : Stores state (.text s) (.text s)

def Holds (k : Kind) (v : Value) : Prop :=
  ∃ w, k.Stores v w

end Kind

variable {k : Kind} {v w : Value}

namespace Double

theorem stores_of_ofNonFiniteName? {s : String} {x : Double} (h : ofNonFiniteName? s = some x) :
    Kind.doubleGauge.Stores (.text s) (.double x) := by
  unfold ofNonFiniteName? at h
  split at h
  . next hs =>
    cases h
    exact hs ▸ .nan
  . split at h
    . next hs =>
      cases h
      exact hs ▸ .infinity
    . split at h
      . next hs =>
        cases h
        exact hs ▸ .negativeInfinity
      . cases h

end Double

namespace Value

theorem integer?_eq_some_iff {n : Int64} : v.integer? = some n ↔ v = .integer n := by
  cases v <;> simp [integer?]

theorem text?_eq_some_iff {s : String} : v.text? = some s ↔ v = .text s := by
  cases v <;> simp [text?]

theorem stores_of_double? {x : Double} (h : v.double? = some x) :
    Kind.doubleGauge.Stores v (.double x) := by
  cases v with
  | integer n =>
    cases h
    apply Kind.Stores.whole
  | double y =>
    cases h
    apply Kind.Stores.doubleGauge
  | text s => apply Double.stores_of_ofNonFiniteName? h

end Value

namespace Reading

theorem eq_of_kind_of_value {r s : Reading} (hkind : r.kind = s.kind) (hvalue : r.value = s.value) :
    r = s := by
  have hr := ofValue?_value r
  rw [hkind, hvalue, ofValue?_value] at hr
  apply (Option.some.inj hr).symm

theorem stores_of_ofValue? {r : Reading} (h : ofValue? k v = some r) : k.Stores v r.value := by
  cases k with
  | counter =>
    obtain ⟨n, hn, rfl⟩ := Option.map_eq_some_iff.1 h
    rw [Value.integer?_eq_some_iff.1 hn]
    apply Kind.Stores.counter
  | integerGauge =>
    obtain ⟨n, hn, rfl⟩ := Option.map_eq_some_iff.1 h
    rw [Value.integer?_eq_some_iff.1 hn]
    apply Kind.Stores.integerGauge
  | doubleGauge =>
    obtain ⟨x, hx, rfl⟩ := Option.map_eq_some_iff.1 h
    apply Value.stores_of_double? hx
  | state =>
    obtain ⟨s, hs, rfl⟩ := Option.map_eq_some_iff.1 h
    rw [Value.text?_eq_some_iff.1 hs]
    apply Kind.Stores.state

theorem exists_ofValue?_of_stores (h : k.Stores v w) :
    ∃ r, ofValue? k v = some r ∧ r.value = w := by
  cases h with
  | counter n => exact ⟨.counter n, rfl, rfl⟩
  | integerGauge n => exact ⟨.integerGauge n, rfl, rfl⟩
  | doubleGauge x => exact ⟨.doubleGauge x, rfl, rfl⟩
  | whole n => exact ⟨.doubleGauge _, rfl, rfl⟩
  | nan => exact ⟨.doubleGauge .nan, rfl, rfl⟩
  | infinity => exact ⟨.doubleGauge .infinity, rfl, rfl⟩
  | negativeInfinity => exact ⟨.doubleGauge .negativeInfinity, rfl, rfl⟩
  | state s => exact ⟨.state s, rfl, rfl⟩

theorem ofValue?_eq_some_iff {r : Reading} :
    ofValue? k v = some r ↔ r.kind = k ∧ k.Stores v r.value := by
  constructor
  . intro h
    exact ⟨kind_of_ofValue? h, stores_of_ofValue? h⟩
  . rintro ⟨hkind, hstores⟩
    obtain ⟨s, hs, hvalue⟩ := exists_ofValue?_of_stores hstores
    rw [hs, eq_of_kind_of_value ((kind_of_ofValue? hs).trans hkind.symm) hvalue]

theorem ofValue?_eq_none_iff : ofValue? k v = none ↔ ¬k.Holds v := by
  unfold Kind.Holds
  rw [Option.eq_none_iff_forall_ne_some]
  constructor
  . rintro h ⟨w, hw⟩
    obtain ⟨r, hr, -⟩ := exists_ofValue?_of_stores hw
    apply h r hr
  . intro h r hr
    exact h ⟨r.value, stores_of_ofValue? hr⟩

end Reading

namespace Kind

theorem coerce?_eq_some_iff : k.coerce? v = some w ↔ k.Stores v w := by
  rw [coerce?_eq, Option.map_eq_some_iff]
  constructor
  . rintro ⟨r, hr, rfl⟩
    apply Reading.stores_of_ofValue? hr
  . apply Reading.exists_ofValue?_of_stores

theorem Stores.unique {w' : Value} (h : k.Stores v w) (h' : k.Stores v w') : w = w' := by
  rw [← coerce?_eq_some_iff] at h h'
  apply Option.some.inj (h.symm.trans h')

theorem coerce?_eq_none_iff : k.coerce? v = none ↔ ¬k.Holds v := by
  rw [coerce?_eq, Option.map_eq_none_iff, Reading.ofValue?_eq_none_iff]

end Kind

namespace Metric

variable {name description : String} {timestamp : Int64}

theorem ofParts_eq_ok_iff {m : Metric} :
    ofParts k name description v timestamp = .ok m ↔
      m.name = name ∧ m.description = description ∧ m.timestamp = timestamp ∧ m.kind = k
        ∧ k.Stores v m.value := by
  obtain ⟨mname, mdescription, reading, mtimestamp⟩ := m
  rw [ofParts_eq]
  unfold kind value
  cases h : Reading.ofValue? k v with
  | none =>
    have hholds := Reading.ofValue?_eq_none_iff.1 h
    simp only [reduceCtorEq, false_iff]
    rintro ⟨-, -, -, -, hstores⟩
    exact hholds ⟨_, hstores⟩
  | some r =>
    rw [← Reading.ofValue?_eq_some_iff, h]
    simp only [Except.ok.injEq, mk.injEq, Option.some.injEq]
    constructor
    . rintro ⟨rfl, rfl, rfl, rfl⟩
      exact ⟨rfl, rfl, rfl, rfl⟩
    . rintro ⟨rfl, rfl, rfl, rfl⟩
      exact ⟨rfl, rfl, rfl, rfl⟩

theorem ofParts_eq_error_iff {e : MetricError} :
    ofParts k name description v timestamp = .error e ↔
      ¬k.Holds v ∧ e = .invalidValue name k v := by
  rw [← Reading.ofValue?_eq_none_iff, ofParts_eq]
  cases Reading.ofValue? k v with
  | none => simp [eq_comm]
  | some r => simp

end Metric

end Metering
