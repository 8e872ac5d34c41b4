import Metering.Metric.Value

/-!
This module contains the values that metrics hold, and which values a metric of each kind accepts.
-/

namespace Metering

inductive Reading where
  | counter (n : Int64)
  | integerGauge (n : Int64)
  | doubleGauge (x : Double)
  | state (s : String)
  deriving DecidableEq

namespace Reading

def kind : Reading → Kind
  | counter _ => .counter
  | integerGauge _ => .integerGauge
  | doubleGauge _ => .doubleGauge
  | state _ => .state

def value : Reading → Value
  | counter n => .integer n
  | integerGauge n => .integer n
  | doubleGauge x => .double x
  | state s => .text s

def initial : Kind → Reading
  | .counter => counter 0
  | .integerGauge => integerGauge 0
  | .doubleGauge => doubleGauge 0
  | .state => state ""

end Reading

/-!
## Which values are accepted
-/

namespace Value

/--
What counters and gauges for integers hold of a value.
-/
def integer? : Value → Option Int64
  | integer n => some n
  | _ => none

/--
What gauges for doubles hold of a value. They hold integers as the nearest double, and the names of
the numbers that are not finite as those numbers.
-/
def double? : Value → Option Double
  | double x => some x
  | integer n => some (Double.ofInt n.toInt)
  | text s => Double.ofNonFiniteName? s

/--
What states hold of a value.
-/
def text? : Value → Option String
  | text s => some s
  | _ => none

end Value

/--
The value that a metric of a kind stores for a value.
-/
def Kind.coerce? (k : Kind) (v : Value) : Option Value :=
  match k with
  | .counter => v.integer?.map .integer
  | .integerGauge => v.integer?.map .integer
  | .doubleGauge => v.double?.map .double
  | .state => v.text?.map .text

namespace Reading

/--
The reading of a kind that holds a value.
-/
def ofValue? : Kind → Value → Option Reading
  | .counter, v => v.integer?.map counter
  | .integerGauge, v => v.integer?.map integerGauge
  | .doubleGauge, v => v.double?.map doubleGauge
  | .state, v => v.text?.map state

theorem kind_of_ofValue? {k : Kind} {v : Value} {r : Reading} (h : ofValue? k v = some r) :
    r.kind = k := by
  cases k with
  | _ =>
    obtain ⟨_, -, rfl⟩ := Option.map_eq_some_iff.1 h
    rfl

theorem ofValue?_value (r : Reading) : ofValue? r.kind r.value = some r := by
  cases r <;> rfl

end Reading

theorem Kind.coerce?_eq (k : Kind) (v : Value) :
    k.coerce? v = (Reading.ofValue? k v).map Reading.value := by
  cases k <;> simp only [coerce?, Reading.ofValue?, Option.map_map] <;> rfl

end Metering
