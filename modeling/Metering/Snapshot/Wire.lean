import Metering.Snapshot.Entry

/-!
This module contains the JSON of snapshots.

An entry is written as an object. It is read from an object with its fields in any order, or from
an array with its fields in the order in which they are written.
-/

namespace Metering.Snapshot

open Json (member)

/-!
## Writing
-/

def integerJson (i : Int) : Json :=
  .number (.ofInt i)

def textJson (s : String) : Json :=
  .string (Json.Piece.ofString s)

def recordJson (r : Record) : Json :=
  .object [member "value" r.value.toJson, member "timestamp" (integerJson r.timestamp.toInt)]

/--
An entry as JSON. An empty history is left out.
-/
def Entry.toJson (e : Entry) : Json :=
  .object <|
    [member "type" e.kind.toJson, member "name" (textJson e.name),
      member "description" (textJson e.description), member "value" e.value.toJson,
      member "timestamp" (integerJson e.timestamp.toInt),
      member "changes_since_flush" (integerJson e.changes.toNat)]
    ++ if e.history = [] then [] else [member "history" (.array (e.history.map recordJson))]

/-!
## Reading
-/

def timestampOfJson? (j : Json) : Option Int64 :=
  j.int?.bind Integer.ofInt?

def changesOfJson? (j : Json) : Option Tally :=
  j.int?.bind fun i => if i < 0 then none else Tally.ofNat? i.toNat

def recordOfJson? : Json → Option Record
  | .array [value, timestamp] => do
    let value ← Value.ofJson? value
    let timestamp ← timestampOfJson? timestamp
    return ⟨value, timestamp⟩
  | j => do
    let members ← j.members?
    let value ← Json.required? members "value" Value.ofJson?
    let timestamp ← Json.required? members "timestamp" timestampOfJson?
    return ⟨value, timestamp⟩

def historyOfJson? (j : Json) : Option (List Record) :=
  j.items?.bind (·.mapM recordOfJson?)

/--
An entry whose fields stand in order. The history may be left out.
-/
def Entry.ofItems? : List Json → Option Entry
  | kind :: name :: description :: value :: timestamp :: changes :: rest => do
    let kind ← Kind.ofJson? kind
    let name ← name.text?
    let description ← description.text?
    let value ← Value.ofJson? value
    let timestamp ← timestampOfJson? timestamp
    let changes ← changesOfJson? changes
    let history ←
      match rest with
      | [] => some []
      | [history] => historyOfJson? history
      | _ => none
    return ⟨kind, name, description, value, timestamp, changes, history⟩
  | _ => none

/--
An entry whose fields have names. The description and the history may be left out, and members with
other names are passed over.
-/
def Entry.ofMembers? (members : List (String × Json)) : Option Entry := do
  let kind ← Json.required? members "type" Kind.ofJson?
  let name ← Json.required? members "name" Json.text?
  let description ← Json.optional? members "description" "" Json.text?
  let value ← Json.required? members "value" Value.ofJson?
  let timestamp ← Json.required? members "timestamp" timestampOfJson?
  let changes ← Json.required? members "changes_since_flush" changesOfJson?
  let history ← Json.optional? members "history" [] historyOfJson?
  return ⟨kind, name, description, value, timestamp, changes, history⟩

def Entry.ofJson? : Json → Option Entry
  | .array items => ofItems? items
  | j => j.members?.bind ofMembers?

def entriesOfJson? (j : Json) : Option (List Entry) :=
  j.items?.bind (·.mapM Entry.ofJson?)

end Metering.Snapshot
