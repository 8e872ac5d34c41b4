import Metering.Decimal.Digits
import Metering.Log
import Metering.Text.Quoted

/-!
This module contains sinks, which take the texts of flushed values, and what is logged about them.
-/

namespace Metering

abbrev Batch := List (String × String)

inductive SinkError where
  | io (text : String)
  | failed (text : String)
  deriving DecidableEq

namespace SinkError

def message : SinkError → String
  | io text => "sink I/O error: " ++ text
  | failed text => "sink failed: " ++ text

end SinkError

/--
What a panic says: its message, unless what it carries is no text.
-/
abbrev Panic := Option String

namespace Panic

/--
What is said of a task that has panicked. The task has a number, which is not shown.
-/
def taskText : Panic → String
  | some message => "task # panicked with message " ++ Text.quoted message
  | none => "task # panicked"

end Panic

inductive Outcome where
  | received
  | failed (e : SinkError)
  | panicked (panic : Panic)
  deriving DecidableEq

structure Sink where
  name : String
  outcome : Outcome
  announces : Bool
  deriving DecidableEq

namespace Sink

def log : Sink :=
  ⟨"tracing", .received, true⟩

def ownLines (s : Sink) (b : Batch) : List Line :=
  if s.announces then b.map fun (name, value) => ⟨.info, "Metric " ++ name ++ ": " ++ value⟩ else []

/--
The log line of the end of a delivery.
-/
def outcomeLine (s : Sink) (b : Batch) : Outcome → Line
  | .received =>
    ⟨.debug, "Sink " ++ s.name ++ " received " ++ Decimal.text b.length ++ " metrics"⟩
  | .failed e => ⟨.error, "Exception in sink " ++ s.name ++ ": " ++ e.message⟩
  | .panicked panic => ⟨.error, "Sink task failed: " ++ panic.taskText⟩

def releaseLine (s : Sink) : Line :=
  ⟨.debug, "Released sink " ++ s.name⟩

end Sink

end Metering
