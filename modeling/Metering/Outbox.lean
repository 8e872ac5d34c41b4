import Metering.Sink

/-!
This module contains the delivery of batches to sinks.

A dispatch hands one batch to every sink in a list. Each sink is served independently of the others:
it is handed the batch, and it is released once the delivery has ended in whatever way. A sink may
be listed more than once, so sinks are told apart by their place in the list.
-/

namespace Metering

/--
A gate in front of a sink, which lets through any number of deliveries or as many as it has permits.
-/
inductive Gate where
  | wide
  | permits (n : Nat)
  deriving DecidableEq

namespace Gate

def pass? : Gate → Option Gate
  | wide => some wide
  | permits 0 => none
  | permits (n + 1) => some (permits n)

def add (count : Nat) : Gate → Gate
  | wide => wide
  | permits n => permits (n + count)

end Gate

structure Station where
  sink : Sink
  gate : Gate
  handed : List Batch
  released : Nat

namespace Station

def ofSink (sink : Sink) (gate : Gate) : Station :=
  ⟨sink, gate, [], 0⟩

end Station

inductive Stage where
  | waiting
  | handed
  | released
  deriving DecidableEq

structure Dispatch where
  batch : Batch
  stages : List Stage

namespace Dispatch

def start (batch : Batch) (sinks : Nat) : Dispatch :=
  ⟨batch, List.replicate sinks .waiting⟩

def finished (d : Dispatch) : Bool :=
  d.stages.all (· = .released)

end Dispatch

structure Outbox where
  stations : List Station
  inFlight : List Dispatch

namespace Outbox

def ofStations (stations : List Station) : Outbox :=
  ⟨stations, []⟩

def dispatch (o : Outbox) (b : Batch) : Outbox :=
  ⟨o.stations, o.inFlight ++ [.start b o.stations.length]⟩

def tidy (o : Outbox) : Outbox :=
  ⟨o.stations, o.inFlight.filter fun d => !d.finished⟩

def idle (o : Outbox) : Bool :=
  o.inFlight.all Dispatch.finished

/-!
## Progress of deliveries
-/

def hand? (o : Outbox) (i p : Nat) : Option (Outbox × List Line) :=
  match o.inFlight[i]?, o.stations[p]? with
  | some d, some s =>
    if d.stages[p]? = some .waiting then
      some (⟨o.stations.set p { s with handed := s.handed ++ [d.batch] },
        o.inFlight.set i { d with stages := d.stages.set p .handed }⟩, s.sink.ownLines d.batch)
    else
      none
  | _, _ => none

def release? (o : Outbox) (i p : Nat) (outcome : Outcome) : Option (Outbox × List Line) :=
  match o.inFlight[i]?, o.stations[p]? with
  | some d, some s =>
    if d.stages[p]? = some .handed then
      some (⟨o.stations.set p { s with released := s.released + 1 },
        o.inFlight.set i { d with stages := d.stages.set p .released }⟩,
        [s.sink.outcomeLine d.batch outcome, s.sink.releaseLine])
    else
      none
  | _, _ => none

def pass? (o : Outbox) (p : Nat) : Option Outbox :=
  match o.stations[p]? with
  | none => none
  | some s => s.gate.pass?.map fun gate => ⟨o.stations.set p { s with gate := gate }, o.inFlight⟩

/--
Complete the delivery of the `i`-th dispatch to the sink in place `p` if it waits and the gate lets
it through.
-/
def deliver? (o : Outbox) (i p : Nat) : Option (Outbox × List Line) := do
  let s ← o.stations[p]?
  let (o, own) ← o.hand? i p
  let o ← o.pass? p
  let (o, ended) ← o.release? i p s.sink.outcome
  return (o, own ++ ended)

def deliver (o : Outbox) (i p : Nat) : Outbox × List Line :=
  (o.deliver? i p).getD (o, [])

def deliverAll (o : Outbox) : List (Nat × Nat) → Outbox × List Line
  | [] => (o, [])
  | (i, p) :: rest =>
    let (o, lines) := o.deliver i p
    let (o, more) := o.deliverAll rest
    (o, lines ++ more)

def settle (o : Outbox) : Outbox × List Line :=
  o.deliverAll <|
    (List.range o.inFlight.length).flatMap fun i => (List.range o.stations.length).map (i, ·)

/-!
## Gates
-/

def addPermits (o : Outbox) (p count : Nat) : Outbox :=
  ⟨o.stations.modify p fun s => { s with gate := s.gate.add count }, o.inFlight⟩

def openGates (o : Outbox) : Outbox :=
  ⟨o.stations.map fun s => { s with gate := .wide }, o.inFlight⟩

end Outbox

end Metering
