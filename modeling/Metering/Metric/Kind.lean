/-!
This module contains the kinds of metrics.
-/

namespace Metering

inductive Mutability where
  | inPlace
  | perUpdate
  deriving DecidableEq

inductive Kind where
  | counter
  | integerGauge
  | doubleGauge
  | state
  deriving DecidableEq

namespace Kind

def all : List Kind :=
  [counter, integerGauge, doubleGauge, state]

theorem mem_all (k : Kind) : k ∈ all := by
  cases k <;> decide

def name : Kind → String
  | counter => "counter"
  | integerGauge => "integer_gauge"
  | doubleGauge => "double_gauge"
  | state => "state"

def ofName? (s : String) : Option Kind :=
  all.find? (·.name = s)

theorem ofName?_name (k : Kind) : ofName? k.name = some k := by
  cases k <;> decide

theorem ofName?_eq_some_iff {s : String} {k : Kind} : ofName? s = some k ↔ s = k.name := by
  constructor
  . intro h
    have hname : k.name = s := by simpa using List.find?_some h
    exact hname.symm
  . rintro rfl
    apply ofName?_name

def mutability : Kind → Mutability
  | counter => .inPlace
  | integerGauge => .perUpdate
  | doubleGauge => .perUpdate
  | state => .inPlace

def keepsHistory (k : Kind) : Bool :=
  k.mutability = .perUpdate

theorem keepsHistory_iff {k : Kind} : k.keepsHistory ↔ k = integerGauge ∨ k = doubleGauge := by
  cases k <;> decide

theorem not_keepsHistory_iff {k : Kind} : ¬k.keepsHistory ↔ k = counter ∨ k = state := by
  cases k <;> decide

end Kind

end Metering
