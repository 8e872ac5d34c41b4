import Metering.Metric.Value

/-!
This module contains the reasons for which a metric is not updated, and how the outcome of several
steps is traced back to the outcomes of the steps.
-/

namespace Metering

inductive Operation where
  | increment
  | decrement
  deriving DecidableEq

namespace Operation

def name : Operation → String
  | increment => "increment"
  | decrement => "decrement"

/--
The value of a counter after a change. It stops at the ends of its range.
-/
def apply (op : Operation) (n delta : Int64) : Int64 :=
  match op with
  | increment => Integer.clamp (n.toInt + delta.toInt)
  | decrement => Integer.clamp (n.toInt - delta.toInt)

end Operation

inductive MetricError where
  | notRegistered (name : String)
  | typeMismatch (name : String) (expected actual : Kind)
  | nameMismatch (expected actual : String)
  | invalidValue (name : String) (kind : Kind) (value : Value)
  | unsupportedOperation (name : String) (kind : Kind) (operation : Operation)
  deriving DecidableEq

namespace MetricError

def quoteName (name : String) : String :=
  "`" ++ name ++ "`"

def message : MetricError → String
  | notRegistered name => "metric " ++ quoteName name ++ " is not registered"
  | typeMismatch name expected actual =>
    "metric " ++ quoteName name ++ " is a " ++ expected.name ++ " but was given a " ++ actual.name
  | nameMismatch expected actual =>
    "metric " ++ quoteName actual ++ " cannot update metric " ++ quoteName expected
  | invalidValue name kind value =>
    "metric " ++ quoteName name ++ " of type " ++ kind.name ++ " cannot hold value "
      ++ value.describe
  | unsupportedOperation name kind operation =>
    "metric " ++ quoteName name ++ " of type " ++ kind.name ++ " does not support "
      ++ operation.name

end MetricError

/-!
## What comes of a success and of a failure
-/

section

variable {ε α β : Type} {x : Except ε α} {b : β}

theorem map_eq_ok_iff {f : α → β} : x.map f = .ok b ↔ ∃ a, x = .ok a ∧ f a = b := by
  cases x <;> simp [Except.map]

theorem bind_eq_ok_iff {f : α → Except ε β} : x >>= f = .ok b ↔ ∃ a, x = .ok a ∧ f a = .ok b := by
  cases x <;> simp [bind, Except.bind]

theorem bind_eq_error_iff {f : α → Except ε β} {e : ε} :
    x >>= f = .error e ↔ x = .error e ∨ ∃ a, x = .ok a ∧ f a = .error e := by
  cases x <;> simp [bind, Except.bind]

theorem map_eq_error_iff {f : α → β} {e : ε} : x.map f = .error e ↔ x = .error e := by
  cases x <;> simp [Except.map]

end

/-!
## What a refused operation leaves behind

An operation on a state gives the state afterwards together with its result.
-/

section

variable {ε α : Type} {a b : α} {x : α × Except ε Unit}

/--
The state after an operation, as the result of it.
-/
def settled (x : α × Except ε Unit) : Except ε α :=
  x.2.map fun _ => x.1

/--
Whether an operation on a state leaves it as it is unless it succeeds.
-/
def Spares (a : α) (x : α × Except ε Unit) : Prop :=
  ∀ e, x.2 = .error e → x.1 = a

theorem spares_ok (a b : α) : Spares a ((b, .ok ()) : α × Except ε Unit) :=
  nofun

theorem spares_error (a : α) (e : ε) : Spares a (a, .error e) :=
  fun _ _ => rfl

theorem settled_eq_ok_iff : settled x = .ok b ↔ x = (b, .ok ()) := by
  unfold settled
  rw [map_eq_ok_iff]
  constructor
  . rintro ⟨_, hok, rfl⟩
    exact Prod.ext rfl hok
  . rintro rfl
    exact ⟨(), rfl, rfl⟩

theorem Spares.settled_eq_error_iff (h : Spares a x) {e : ε} :
    settled x = .error e ↔ x = (a, .error e) := by
  unfold settled
  rw [map_eq_error_iff]
  constructor
  . intro he
    exact Prod.ext (h e he) he
  . rintro rfl
    rfl

end

end Metering
