import Metering.Metric.Error
import Metering.Metric.Reading

/-!
This module contains metrics: a named reading with the time at which it was taken. What changes a
metric is given the present reading of the clock as `now`.
-/

namespace Metering

structure Metric where
  name : String
  description : String
  reading : Reading
  timestamp : Int64
  deriving DecidableEq

namespace Metric

def kind (m : Metric) : Kind :=
  m.reading.kind

def value (m : Metric) : Value :=
  m.reading.value

def create (now : Int64) (kind : Kind) (name description : String) : Metric :=
  ⟨name, description, .initial kind, now⟩

/--
A metric of a kind with the reading that the kind holds of a value.
-/
def build {α : Type} (kind : Kind) (extract? : Value → Option α) (hold : α → Reading)
    (name description : String) (value : Value) (timestamp : Int64) : Except MetricError Metric :=
  match extract? value with
  | some x => .ok ⟨name, description, hold x, timestamp⟩
  | none => .error (.invalidValue name kind value)

def ofParts (kind : Kind) (name description : String) (value : Value) (timestamp : Int64) :
    Except MetricError Metric :=
  match kind with
  | .counter => build .counter Value.integer? .counter name description value timestamp
  | .integerGauge =>
    build .integerGauge Value.integer? .integerGauge name description value timestamp
  | .doubleGauge => build .doubleGauge Value.double? .doubleGauge name description value timestamp
  | .state => build .state Value.text? .state name description value timestamp

/--
Set a metric of a kind to what the kind holds of a value.
-/
def assignTyped {α : Type} (now : Int64) (m : Metric) (kind : Kind) (extract? : Value → Option α)
    (hold : α → Reading) (value : Value) : Metric × Except MetricError Unit :=
  match extract? value with
  | some x => ({ m with reading := hold x, timestamp := now }, .ok ())
  | none => (m, .error (.invalidValue m.name kind value))

def assign (now : Int64) (m : Metric) (value : Value) : Metric × Except MetricError Unit :=
  match m.reading with
  | .counter _ => m.assignTyped now .counter Value.integer? .counter value
  | .integerGauge _ => m.assignTyped now .integerGauge Value.integer? .integerGauge value
  | .doubleGauge _ => m.assignTyped now .doubleGauge Value.double? .doubleGauge value
  | .state _ => m.assignTyped now .state Value.text? .state value

def operate (now : Int64) (m : Metric) (op : Operation) (delta : Int64) :
    Metric × Except MetricError Unit :=
  match m.reading with
  | .counter n => ({ m with reading := .counter (op.apply n delta), timestamp := now }, .ok ())
  | _ => (m, .error (.unsupportedOperation m.name m.kind op))

/--
A copy of a metric that is set to a value.
-/
def withValue (now : Int64) (m : Metric) (value : Value) : Except MetricError Metric :=
  settled (m.assign now value)

def change (now : Int64) (m : Metric) (op : Operation) (delta : Int64) :
    Except MetricError Metric :=
  settled (m.operate now op delta)

def agrees (m n : Metric) : Bool :=
  m.name = n.name && m.description = n.description && m.kind = n.kind
    && m.value.agrees n.value && m.timestamp = n.timestamp

theorem build_eq {α : Type} (kind : Kind) (extract? : Value → Option α) (hold : α → Reading)
    (name description : String) (v : Value) (timestamp : Int64) :
    build kind extract? hold name description v timestamp
      = match (extract? v).map hold with
        | some r => .ok ⟨name, description, r, timestamp⟩
        | none => .error (.invalidValue name kind v) := by
  unfold build
  cases extract? v <;> rfl

theorem ofParts_eq (kind : Kind) (name description : String) (v : Value) (timestamp : Int64) :
    ofParts kind name description v timestamp
      = match Reading.ofValue? kind v with
        | some r => .ok ⟨name, description, r, timestamp⟩
        | none => .error (.invalidValue name kind v) := by
  cases kind <;> apply build_eq

theorem assignTyped_eq {α : Type} (now : Int64) (m : Metric) (kind : Kind)
    (extract? : Value → Option α) (hold : α → Reading) (v : Value) :
    m.assignTyped now kind extract? hold v
      = match (extract? v).map hold with
        | some r => ({ m with reading := r, timestamp := now }, .ok ())
        | none => (m, .error (.invalidValue m.name kind v)) := by
  unfold assignTyped
  cases extract? v <;> rfl

theorem assign_eq (now : Int64) (m : Metric) (v : Value) :
    m.assign now v
      = match Reading.ofValue? m.kind v with
        | some r => ({ m with reading := r, timestamp := now }, .ok ())
        | none => (m, .error (.invalidValue m.name m.kind v)) := by
  obtain ⟨name, description, reading, timestamp⟩ := m
  cases reading <;> apply assignTyped_eq

theorem spares_assign (now : Int64) (m : Metric) (v : Value) : Spares m (m.assign now v) := by
  rw [assign_eq]
  split
  . apply spares_ok
  . apply spares_error

theorem spares_operate (now : Int64) (m : Metric) (op : Operation) (delta : Int64) :
    Spares m (m.operate now op delta) := by
  unfold operate
  split
  . apply spares_ok
  . apply spares_error

theorem withValue_eq_ofParts (now : Int64) (m : Metric) (v : Value) :
    m.withValue now v = ofParts m.kind m.name m.description v now := by
  unfold withValue
  rw [assign_eq, ofParts_eq]
  cases Reading.ofValue? m.kind v <;> rfl

theorem change_eq (now : Int64) (m : Metric) (op : Operation) (delta : Int64) :
    m.change now op delta
      = match m.reading with
        | .counter n => .ok { m with reading := .counter (op.apply n delta), timestamp := now }
        | _ => .error (.unsupportedOperation m.name m.kind op) := by
  unfold change operate
  split <;> rfl

end Metric

end Metering
