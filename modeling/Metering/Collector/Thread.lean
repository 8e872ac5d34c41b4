import Metering.Collector.Service

/-!
This module contains the service as one of the threads that use its registry.

The service takes the lock of the registry more than once for some commands, and other threads may
take it in between. Hence a step of the service reaches from one time at which it takes the lock to
the next one. What it does without the lock is seen by no other thread and belongs to the step
before.
-/

namespace Metering

inductive Point where
  | serving
  /-- A snapshot was merged, and the threshold was not looked at since. -/
  | merged
  | overdue
  | leaving
  | pending
  /-- The last flush took place, or there was nothing to flush. The deliveries are awaited. -/
  | closed
  | returned
  deriving DecidableEq

structure Thread where
  collector : Collector
  point : Point
  queue : List Request
  connected : Bool
  shipments : List Shipment

inductive Event where
  | send (q : Request)
  | hangUp
  | work
  | register (m : Metric)
  | update (now : Int64) (name : String) (u : Update)
  | hand (i p : Nat)
  | release (i p : Nat) (outcome : Outcome)

namespace Thread

def start (c : Collector) : Thread :=
  ⟨c, .serving, [], true, []⟩

/--
The same thread with what is left of a turn, apart from the reply and the lines.
-/
def after (s : Thread) (turn : Turn) : Thread :=
  { s with collector := turn.collector, shipments := s.shipments ++ turn.shipments }

/--
Whether the service does not use its registry any more.
-/
def Closed (s : Thread) : Prop :=
  s.point = .closed ∨ s.point = .returned

instance (s : Thread) : Decidable s.Closed :=
  inferInstanceAs (Decidable (_ ∨ _))

def withRegistry (s : Thread) (r : Registry) : Thread :=
  { s with collector := { s.collector with registry := r } }

def withOutbox (s : Thread) (o : Outbox) : Thread :=
  { s with collector := { s.collector with outbox := o } }

/-!
## The steps of the service
-/

/--
Carry out a command, a snapshot only as far as it is merged.
-/
def perform (s : Thread) : Command → Thread
  | .ingest payload | .submit payload =>
    match s.collector.accept payload with
    | (.error _, c, _) => { s with collector := c }
    | (.ok _, c, _) => { s with collector := c, point := .merged }
  | command => s.after (s.collector.handle command)

def take? (s : Thread) : Option Thread :=
  match s.queue with
  | [] => if s.connected then none else some { s with point := .leaving }
  | .shutdown :: qs => some { s with queue := qs, point := .leaving }
  | .command command _ :: qs => some (perform { s with queue := qs } command)

def work? (s : Thread) : Option Thread :=
  match s.point with
  | .serving => s.take?
  | .merged => some { s with point := if s.collector.overdue then .overdue else .serving }
  | .overdue => some (after { s with point := .serving } (s.collector.handle .flush))
  | .leaving => some { s with point := if s.collector.pending then .pending else .closed }
  | .pending => some (after { s with point := .closed } (s.collector.handle .flush))
  | .closed => if s.collector.outbox.idle then some { s with point := .returned } else none
  | .returned => none

/-!
## Runs
-/

/--
The thread after an event, if the event can happen. The registry is used by other threads until the
service is closed, and requests can be sent until it has returned.
-/
def step? (s : Thread) : Event → Option Thread
  | .send q =>
    if s.connected ∧ s.point ≠ .returned then some { s with queue := s.queue ++ [q] } else none
  | .hangUp => some { s with connected := false }
  | .work => s.work?
  | .register m =>
    if s.Closed then none
    else some (s.withRegistry ((s.collector.registry.register? m).getD s.collector.registry))
  | .update now name u =>
    if s.Closed then none
    else some (s.withRegistry (s.collector.registry.perform now name u).1)
  | .hand i p => (s.collector.outbox.hand? i p).map fun (o, _) => s.withOutbox o
  | .release i p outcome =>
    (s.collector.outbox.release? i p outcome).map fun (o, _) => s.withOutbox o

def run? (s : Thread) : List Event → Option Thread
  | [] => some s
  | e :: es => (s.step? e).bind fun s => s.run? es

theorem run?_cons_eq_some_iff {s t : Thread} {e : Event} {es : List Event} :
    s.run? (e :: es) = some t ↔ ∃ u, s.step? e = some u ∧ u.run? es = some t :=
  Option.bind_eq_some_iff

theorem run?_append (s : Thread) (es fs : List Event) :
    s.run? (es ++ fs) = (s.run? es).bind (·.run? fs) := by
  induction es generalizing s with
  | nil => rfl
  | cons e es ih =>
    simp only [List.cons_append, run?, Option.bind_assoc]
    congr 1
    funext t
    apply ih

theorem run?_append_eq_some_iff {s t : Thread} {es fs : List Event} :
    s.run? (es ++ fs) = some t ↔ ∃ u, s.run? es = some u ∧ u.run? fs = some t := by
  rw [run?_append, Option.bind_eq_some_iff]

end Thread

end Metering
