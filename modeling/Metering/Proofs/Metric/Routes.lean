import Metering.Proofs.Metric.Holding
import Metering.Proofs.Snapshot.RoundTrip

/-!
This module contains that it makes no difference in which way a value is given to metrics of a kind:
all of the ways store the same for it, or all of them refuse it.
-/

namespace Metering

namespace Kind

/--
Whether a value that is given to metrics of a kind becomes the reading `r`, whichever way it takes.
-/
structure Accepts (k : Kind) (v : Value) (r : Reading) : Prop where
  stores : k.Stores v r.value
  coerced : k.coerce? v = some r.value
  built : ∀ name description timestamp,
    Metric.ofParts k name description v timestamp = .ok ⟨name, description, r, timestamp⟩
  copied : ∀ m : Metric, m.kind = k → ∀ now,
    m.withValue now v = .ok ⟨m.name, m.description, r, now⟩
  applied : ∀ t : Tracked, t.kind = k → ∀ now, ∃ t', t.apply now (.value v) = .ok t'
    ∧ t'.current = ⟨t.name, t.current.description, r, now⟩

/--
Whether no way leads from a value into metrics of a kind. The errors tell which value it was, and a
metric that was to be updated stays as it is.
-/
structure Refuses (k : Kind) (v : Value) : Prop where
  holds : ¬k.Holds v
  coerced : k.coerce? v = none
  built : ∀ name description timestamp,
    Metric.ofParts k name description v timestamp = .error (.invalidValue name k v)
  copied : ∀ m : Metric, m.kind = k → ∀ now,
    m.withValue now v = .error (.invalidValue m.name k v)
  applied : ∀ t : Tracked, t.kind = k → ∀ now,
    t.apply now (.value v) = .error (.invalidValue t.name k v)
  kept : ∀ (t : Tracked) now, t.kind = k → (t.perform now (.value v)).1 = t

variable {k : Kind} {v : Value} {r : Reading}

theorem accepts_of_ofValue? (h : Reading.ofValue? k v = some r) : k.Accepts v r := by
  have hbuilt (name description : String) (timestamp : Int64) :
      Metric.ofParts k name description v timestamp = .ok ⟨name, description, r, timestamp⟩ := by
    rw [Metric.ofParts_eq, h]
  have hcopied (m : Metric) (hkind : m.kind = k) (now : Int64) :
      m.withValue now v = .ok ⟨m.name, m.description, r, now⟩ := by
    rw [Metric.withValue_eq_ofParts, hkind, hbuilt]
  refine ⟨Reading.stores_of_ofValue? h, ?_, hbuilt, hcopied, ?_⟩
  . rw [coerce?_eq, h, Option.map_some]
  . intro t hkind now
    exact ⟨_, Tracked.apply_eq_ok_iff.2 ⟨_, hcopied t.current hkind now, rfl⟩, rfl⟩

theorem refuses_of_ofValue? (h : Reading.ofValue? k v = none) : k.Refuses v := by
  have hbuilt (name description : String) (timestamp : Int64) :
      Metric.ofParts k name description v timestamp = .error (.invalidValue name k v) := by
    rw [Metric.ofParts_eq, h]
  have hcopied (m : Metric) (hkind : m.kind = k) (now : Int64) :
      m.withValue now v = .error (.invalidValue m.name k v) := by
    rw [Metric.withValue_eq_ofParts, hkind, hbuilt]
  have hholds := Reading.ofValue?_eq_none_iff.1 h
  have happlied (t : Tracked) (hkind : t.kind = k) (now : Int64) :
      t.apply now (.value v) = .error (.invalidValue t.name k v) := by
    rw [Tracked.apply_eq, map_eq_error_iff]
    apply hcopied t.current hkind now
  refine ⟨hholds, coerce?_eq_none_iff.2 hholds, hbuilt, hcopied, happlied, ?_⟩
  intro t now hkind
  have hspares := t.spares_perform now (.value v)
  rw [hspares.settled_eq_error_iff.1 (happlied t hkind now)]

theorem coerce?_value (r : Reading) : r.kind.coerce? r.value = some r.value := by
  rw [coerce?_eq, Reading.ofValue?_value, Option.map_some]

end Kind

namespace Value

/--
What is read for a value from its JSON text, while it is not known for which kind.
-/
def reread? (v : Value) : Option Value :=
  (Json.ofBytes? v.toJson.bytes).bind ofJson?

theorem reread?_eq (v : Value) : v.reread? = some v.written := by
  unfold reread?
  rw [Json.ofBytes?_bytes v.wellFormed_toJson, Option.bind_some, ofJson?_toJson]

end Value

namespace Kind

/--
A value is taken for metrics of a kind in every way or in none. What is stored for it is a reading
of that kind, which is stored for its own value again, and, what is not a number apart, for what is
read from the text of that value.
-/
theorem routes_agree (k : Kind) (v : Value) :
    k.Refuses v
      ∨ ∃ r : Reading, k.Accepts v r ∧ r.kind = k ∧ k.coerce? r.value = some r.value
        ∧ ∃ u, r.value.reread? = some u ∧ k.coerce? u = some r.value.canonical := by
  cases h : Reading.ofValue? k v with
  | none =>
    left
    apply refuses_of_ofValue? h
  | some r =>
    right
    have hkind := Reading.kind_of_ofValue? h
    subst hkind
    exact ⟨r, accepts_of_ofValue? h, rfl, coerce?_value r, r.value.written, r.value.reread?_eq,
      coerce?_written ⟨r, rfl, rfl⟩⟩

/--
A gauge for doubles takes a whole number that no double is, but not the text of one that a double
is.
-/
theorem routes_agree_whole_number :
    let stored : Reading := .doubleGauge ⟨0x4340000000000000⟩
    doubleGauge.Accepts (.integer 9007199254740993) stored
      ∧ doubleGauge.coerce? stored.value = some stored.value
      ∧ doubleGauge.Refuses (.text "1.5") := by
  intro stored
  have hstored : stored.value = .double (Double.ofInt (9007199254740993 : Int64).toInt) := by
    decide +kernel
  have hstores : doubleGauge.Stores (.integer 9007199254740993) stored.value :=
    hstored ▸ .whole 9007199254740993
  have hrefused : ¬doubleGauge.Holds (.text "1.5") := by
    rw [← coerce?_eq_none_iff]
    decide
  refine ⟨?_, ?_, ?_⟩
  . obtain hrefuses | ⟨r, haccepts, hkind, -⟩ :=
      routes_agree .doubleGauge (.integer 9007199254740993)
    . exact absurd ⟨_, hstores⟩ hrefuses.holds
    . have hvalue := haccepts.stores.unique hstores
      rwa [Reading.eq_of_kind_of_value (s := stored) hkind hvalue] at haccepts
  . apply coerce?_value stored
  . obtain hrefuses | ⟨r, haccepts, -⟩ := routes_agree .doubleGauge (.text "1.5")
    . exact hrefuses
    . exact absurd ⟨_, haccepts.stores⟩ hrefused

end Kind

end Metering
