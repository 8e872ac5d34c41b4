import Metering.Registry
import Metering.Snapshot.Wire

/-!
This module contains snapshots: metrics with their changes as bytes that one process sends to
another.
-/

namespace Metering

inductive SnapshotError where
  | decode
  | invalid (fault : Snapshot.Fault)
  deriving DecidableEq

namespace SnapshotError

def invalidMessage (reason : String) : String :=
  "invalid snapshot: " ++ reason

/--
The text of an error. Where the JSON goes wrong is not told.
-/
def message : SnapshotError → String
  | decode => "failed to decode snapshot"
  | invalid fault => invalidMessage fault.message

end SnapshotError

namespace Snapshot

def encode (ts : List Tracked) : Bytes :=
  (Json.array (ts.map fun t => (Entry.ofTracked t).toJson)).bytes

def entries? (bs : Bytes) : Option (List Entry) :=
  (Json.ofBytes? bs).bind entriesOfJson?

def decode (bs : Bytes) : Except SnapshotError (List Tracked) :=
  match entries? bs with
  | none => .error .decode
  | some es =>
    match checkEntries [] es with
    | .error f => .error (.invalid f)
    | .ok ts => .ok ts

theorem decode_eq_ok_iff {bs : Bytes} {ts : List Tracked} :
    decode bs = .ok ts ↔ ∃ es, entries? bs = some es ∧ checkEntries [] es = .ok ts := by
  unfold decode
  cases entries? bs with
  | none => simp
  | some es =>
    simp only [Option.some.injEq, exists_eq_left']
    cases checkEntries [] es <;> simp

end Snapshot

namespace Registry

def serialize (r : Registry) : Bytes :=
  Snapshot.encode r.changed

def deserialize (bs : Bytes) : Except SnapshotError Registry :=
  (Snapshot.decode bs).map ofEntries

theorem deserialize_eq_ok_iff {bs : Bytes} {r : Registry} :
    deserialize bs = .ok r ↔ ∃ ts, Snapshot.decode bs = .ok ts ∧ ofEntries ts = r := by
  unfold deserialize
  apply map_eq_ok_iff

end Registry

end Metering
