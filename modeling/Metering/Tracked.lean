import Metering.Metric.Basic
import Metering.Tally

/-!
This module contains metrics together with an account of their changes since the last flush.
-/

namespace Metering

structure Record where
  value : Value
  timestamp : Int64
  deriving DecidableEq

namespace Record

def agrees (r s : Record) : Bool :=
  r.value.agrees s.value && r.timestamp = s.timestamp

end Record

def Metric.record (m : Metric) : Record :=
  ⟨m.value, m.timestamp⟩

inductive Update where
  | value (v : Value)
  | replace (m : Metric)
  | change (op : Operation) (delta : Int64)

/--
A metric, how often it was changed since the last flush, and the values it had before, the oldest
first.
-/
@[ext]
structure Tracked where
  current : Metric
  changes : Tally
  history : List Record
  deriving DecidableEq

namespace Tracked

def name (t : Tracked) : String :=
  t.current.name

def kind (t : Tracked) : Kind :=
  t.current.kind

def ofMetric (m : Metric) : Tracked :=
  ⟨m, 0, []⟩

def checkCompatible (t : Tracked) (m : Metric) : Except MetricError Unit :=
  if m.name ≠ t.name then .error (.nameMismatch t.name m.name)
  else if m.kind ≠ t.kind then .error (.typeMismatch t.name t.kind m.kind)
  else .ok ()

/--
The metric as an update leaves it, without an account of that.
-/
def overwrite (now : Int64) (t : Tracked) : Update → Metric × Except MetricError Unit
  | .value v => t.current.assign now v
  | .replace m =>
    match t.checkCompatible m with
    | .ok () => (m, .ok ())
    | .error e => (t.current, .error e)
  | .change op delta => t.current.operate now op delta

/--
Update a metric. The value that is overwritten goes to the history if the metric has one.
-/
def perform (now : Int64) (t : Tracked) (u : Update) : Tracked × Except MetricError Unit :=
  -- Taken before the update, since it is the value that is overwritten.
  let previous := t.current.record
  let (current, result) := t.overwrite now u
  let t := { t with current }
  match result with
  | .error e => (t, .error e)
  | .ok () =>
    let history := if t.kind.keepsHistory then t.history ++ [previous] else t.history
    ({ t with changes := t.changes + 1, history }, .ok ())

def apply (now : Int64) (t : Tracked) (u : Update) : Except MetricError Tracked :=
  settled (t.perform now u)

def updated (now : Int64) (t : Tracked) (u : Update) : Except MetricError Metric :=
  settled (t.overwrite now u)

def advance (t : Tracked) (m : Metric) : Tracked where
  current := m
  changes := t.changes + 1
  history := if m.kind.keepsHistory then t.history ++ [t.current.record] else t.history

/--
What comes of two metrics of the same name and kind: the other one, with the changes of both and
the history of both. The history of a metric that was not changed is passed over.
-/
def join (t other : Tracked) : Tracked where
  current := other.current
  changes := t.changes + other.changes
  history :=
    if 0 < other.changes.toNat ∧ t.kind.keepsHistory then t.history ++ other.history
    else t.history

def merge (t other : Tracked) : Except MetricError Tracked :=
  (t.checkCompatible other.current).map fun _ => t.join other

def reset (t : Tracked) : Tracked :=
  ⟨t.current, 0, []⟩

/--
The texts of all values since the last flush, the present one last, each under the metric's name.
-/
def pairs (t : Tracked) : List (String × String) :=
  t.history.map (fun r => (t.name, r.value.display)) ++ [(t.name, t.current.value.display)]

def agrees (t u : Tracked) : Bool :=
  t.current.agrees u.current && t.changes = u.changes && t.history.length = u.history.length
    && (t.history.zip u.history).all fun (r, s) => r.agrees s

@[simp]
theorem name_ofMetric (m : Metric) : (ofMetric m).name = m.name := rfl

@[simp]
theorem name_reset (t : Tracked) : t.reset.name = t.name := rfl

@[simp]
theorem kind_reset (t : Tracked) : t.reset.kind = t.kind := rfl

theorem checkCompatible_eq_ok_iff {t : Tracked} {m : Metric} :
    t.checkCompatible m = .ok () ↔ m.name = t.name ∧ m.kind = t.kind := by
  simp only [checkCompatible]
  split
  . simp_all
  . split <;> simp_all

theorem updated_value (now : Int64) (t : Tracked) (v : Value) :
    t.updated now (.value v) = t.current.withValue now v := rfl

theorem updated_replace (now : Int64) (t : Tracked) (m : Metric) :
    t.updated now (.replace m) = (t.checkCompatible m).map fun _ => m := by
  simp only [updated, overwrite]
  cases t.checkCompatible m <;> rfl

theorem updated_change (now : Int64) (t : Tracked) (op : Operation) (delta : Int64) :
    t.updated now (.change op delta) = t.current.change now op delta := rfl

theorem same_of_updated {now : Int64} {t : Tracked} {u : Update} {m : Metric}
    (h : t.updated now u = .ok m) : m.name = t.name ∧ m.kind = t.kind := by
  cases u with
  | value v =>
    rw [updated_value, Metric.withValue_eq_ofParts, Metric.ofParts_eq] at h
    split at h
    . next r hr =>
      cases h
      exact ⟨rfl, Reading.kind_of_ofValue? hr⟩
    . cases h
  | replace m' =>
    rw [updated_replace] at h
    obtain ⟨_, hc, rfl⟩ := map_eq_ok_iff.1 h
    exact checkCompatible_eq_ok_iff.1 hc
  | change op delta =>
    rw [updated_change, Metric.change_eq] at h
    split at h
    . next n hn =>
      cases h
      refine ⟨rfl, ?_⟩
      simp only [kind, Metric.kind, hn]
      rfl
    . cases h

theorem spares_overwrite (now : Int64) (t : Tracked) (u : Update) :
    Spares t.current (t.overwrite now u) := by
  cases u with
  | value v => apply Metric.spares_assign
  | replace m =>
    simp only [overwrite]
    cases t.checkCompatible m with
    | ok _ => apply spares_ok
    | error e => apply spares_error
  | change op delta => apply Metric.spares_operate

theorem perform_eq (now : Int64) (t : Tracked) (u : Update) :
    t.perform now u
      = match t.updated now u with
        | .ok m => (t.advance m, .ok ())
        | .error e => (t, .error e) := by
  cases h : t.updated now u with
  | ok m => simp only [perform, settled_eq_ok_iff.1 h, advance, kind]
  | error e => simp only [perform, (spares_overwrite now t u).settled_eq_error_iff.1 h]

theorem spares_perform (now : Int64) (t : Tracked) (u : Update) : Spares t (t.perform now u) := by
  rw [perform_eq]
  split
  . apply spares_ok
  . apply spares_error

theorem apply_eq (now : Int64) (t : Tracked) (u : Update) :
    t.apply now u = (t.updated now u).map t.advance := by
  unfold apply
  rw [perform_eq]
  cases t.updated now u <;> rfl

theorem apply_eq_ok_iff {now : Int64} {t t' : Tracked} {u : Update} :
    t.apply now u = .ok t' ↔ ∃ m, t.updated now u = .ok m ∧ t.advance m = t' := by
  rw [apply_eq]
  apply map_eq_ok_iff

theorem merge_eq_ok_iff {t other t' : Tracked} :
    t.merge other = .ok t' ↔
      other.name = t.name ∧ other.kind = t.kind ∧ t.join other = t' := by
  unfold merge
  rw [map_eq_ok_iff]
  constructor
  . rintro ⟨_, hcompatible, rfl⟩
    obtain ⟨hname, hkind⟩ := checkCompatible_eq_ok_iff.1 hcompatible
    exact ⟨hname, hkind, rfl⟩
  . rintro ⟨hname, hkind, rfl⟩
    exact ⟨(), checkCompatible_eq_ok_iff.2 ⟨hname, hkind⟩, rfl⟩

end Tracked

end Metering
