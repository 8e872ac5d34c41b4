import Metering.Config
import Metering.Outbox
import Metering.Snapshot.Basic

/-!
This module contains the collector, which merges the snapshots of other processes into a registry of
its own and flushes that registry to the sinks when it has seen enough changes.

The collector carries out one command at a time. What a command does is told by a turn: the
collector afterwards, the reply, the batches that are sent to the sinks and the lines that are
logged.
-/

namespace Metering

inductive IngestError where
  | snapshot (e : SnapshotError)
  | metric (e : MetricError)
  deriving DecidableEq

namespace IngestError

def message : IngestError → String
  | snapshot e => e.message
  | metric e => e.message

end IngestError

structure IngestReport where
  merged : Nat
  flushed : Bool
  deriving DecidableEq

inductive Command where
  | ingest (payload : Bytes)
  | submit (payload : Bytes)
  | flush
  | systemState (state : String) (updated : Int64)
  | get (name : String)

inductive Reply where
  | ingested (result : Except IngestError IngestReport)
  | flushed (count : Nat)
  | metric (m : Option Metric)
  | none

inductive Cause where
  | flush
  | systemState
  deriving DecidableEq

structure Shipment where
  cause : Cause
  batch : Batch
  deriving DecidableEq

structure Collector where
  threshold : Tally
  registry : Registry
  outbox : Outbox

structure Turn where
  collector : Collector
  reply : Reply
  shipments : List Shipment
  lines : List Line

namespace Collector

def stateKey : String := "SystemState"

def timeKey : String := "TimeUpdated"

def sinks (c : Collector) : Nat :=
  c.outbox.stations.length

def ship (c : Collector) (cause : Cause) (b : Batch) : Collector × List Shipment × List Line :=
  let outbox := c.outbox.tidy
  if c.sinks = 0 then
    ({ c with outbox := outbox }, [],
      [⟨.debug, "No sinks configured, dropping " ++ Decimal.text b.length ++ " metric values"⟩])
  else
    ({ c with outbox := outbox.dispatch b }, [⟨cause, b⟩], [])

def flush (c : Collector) : Nat × Collector × List Shipment × List Line :=
  let (batch, registry) := c.registry.drain
  let line := ⟨.debug, "Flushing " ++ Decimal.text batch.length ++ " metric values to "
    ++ Decimal.text c.sinks ++ " sinks"⟩
  let (c, shipments, lines) := ship { c with registry := registry } .flush batch
  (batch.length, c, shipments, line :: lines)

def accept (c : Collector) (payload : Bytes) : Except IngestError Nat × Collector × List Line :=
  match Registry.deserialize payload with
  | .error e => (.error (.snapshot e), c, [])
  | .ok incoming =>
    let lines := c.registry.mergeLines incoming.entries
    match (c.registry.absorb incoming).1 with
    | (registry, .error e) => (.error (.metric e), { c with registry := registry }, lines)
    | (registry, .ok merged) =>
      (.ok merged, { c with registry := registry },
        lines ++ [⟨.debug, "Received " ++ Decimal.text merged ++ " metrics in snapshot"⟩])

def overdue (c : Collector) : Bool :=
  c.registry.flushReady c.threshold

def pending (c : Collector) : Bool :=
  0 < c.registry.totalChanges.toNat

def ingest (c : Collector) (payload : Bytes) :
    Except IngestError IngestReport × Collector × List Shipment × List Line :=
  match c.accept payload with
  | (.error e, c, lines) => (.error e, c, [], lines)
  | (.ok merged, c, lines) =>
    if c.overdue then
      let (_, c, shipments, more) := c.flush
      (.ok ⟨merged, true⟩, c, shipments, lines ++ more)
    else
      (.ok ⟨merged, false⟩, c, [], lines)

/--
The log lines of a snapshot that nobody waits for.
-/
def submitLines (payload : Bytes) : Except IngestError IngestReport → List Line
  | .ok _ => []
  | .error e =>
    [⟨.warn, "Dropping snapshot of " ++ Decimal.text payload.length ++ " bytes: " ++ e.message⟩]

def handle (c : Collector) : Command → Turn
  | .ingest payload =>
    let (result, c, shipments, lines) := c.ingest payload
    ⟨c, .ingested result, shipments, lines⟩
  | .submit payload =>
    let (result, c, shipments, lines) := c.ingest payload
    ⟨c, .none, shipments, lines ++ submitLines payload result⟩
  | .flush =>
    let (count, c, shipments, lines) := c.flush
    ⟨c, .flushed count, shipments, lines⟩
  | .systemState state updated =>
    let (c, shipments, lines) :=
      c.ship .systemState [(stateKey, state), (timeKey, Integer.text updated)]
    ⟨c, .none, shipments, ⟨.info, "System state changed to " ++ state⟩ :: lines⟩
  | .get name => ⟨c, .metric (c.registry.get? name), [], []⟩

def finalFlush (c : Collector) : Turn :=
  if c.pending then
    let (_, c, shipments, lines) := c.flush
    ⟨c, .none, shipments, lines⟩
  else
    ⟨c, .none, [], []⟩

end Collector

end Metering
