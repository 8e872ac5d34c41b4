import Metering.Proofs.Json.Fields
import Metering.Proofs.Snapshot.RoundTrip
import Metering.Proofs.Snapshot.Slot
import Metering.Proofs.Snapshot.Validation

/-!
This module contains the ways of spelling entries as JSON, and that a snapshot is decoded by what it
says and not by how it is spelled.
-/

namespace Metering

open Decimal (Numeral)
open Json (Piece)

/-!
## The ways of spelling an entry
-/

namespace Json

inductive TextSpelled (s : String) : Json → Prop where
  | string {ps : List Piece} (h : Piece.Spelled s ps) : TextSpelled s (.string ps)

inductive IntegerSpelled (i : Int) : Json → Prop where
  | number {n : Numeral} (h : n.toInt? = some i) : IntegerSpelled i (.number n)

end Json

/--
The ways of spelling a value. A numeral spells a double only if it spells no integer of 64 bits.
-/
inductive Value.Spelled : Value → Json → Prop where
  | integer {n : Int64} {j : Json} (h : j.IntegerSpelled n.toInt) : Spelled (.integer n) j
  | double {x : Double} {n : Numeral} (hinteger : ∀ i : Int64, n.toInt? ≠ some i.toInt)
    (hx : Double.ofNumeral? n = some x) : Spelled (.double x) (.number n)
  | text {s : String} {j : Json} (h : j.TextSpelled s) : Spelled (.text s) j

/--
A kind is spelled by its name, by itself or as that of the only member of an object, which is null.
-/
inductive Kind.Spelled (k : Kind) : Json → Prop where
  | name {ps : List Piece} (h : Piece.Spelled k.name ps) : Spelled k (.string ps)
  | member {ps : List Piece} (h : Piece.Spelled k.name ps) : Spelled k (.object [(ps, .null)])

namespace Snapshot

def recordNames : List String :=
  ["value", "timestamp"]

/--
A record is spelled by its value and its timestamp, as an array or under their names.
-/
inductive RecordSpelled (r : Record) : Json → Prop where
  | array {value timestamp : Json} (hvalue : r.value.Spelled value)
    (htimestamp : timestamp.IntegerSpelled r.timestamp.toInt) :
    RecordSpelled r (.array [value, timestamp])
  | object {value timestamp j : Json} (hvalue : r.value.Spelled value)
    (htimestamp : timestamp.IntegerSpelled r.timestamp.toInt)
    (hj : j.HasFields recordNames [("value", value), ("timestamp", timestamp)]) :
    RecordSpelled r j

inductive HistorySpelled (rs : List Record) : Json → Prop where
  | array {items : List Json} (h : List.Forall₂ RecordSpelled rs items) :
    HistorySpelled rs (.array items)

namespace Entry

/--
Whether values spell the parts of an entry. The description and the history may go without saying.
-/
structure PartsSpelled (e : Entry) (kind name : Json) (description : List Json)
    (value timestamp changes : Json) (history : List Json) : Prop where
  kind : e.kind.Spelled kind
  name : name.TextSpelled e.name
  description : Json.Given Json.TextSpelled "" e.description description
  value : e.value.Spelled value
  timestamp : timestamp.IntegerSpelled e.timestamp.toInt
  changes : changes.IntegerSpelled e.changes.toNat
  history : Json.Given HistorySpelled [] e.history history

def names : List String :=
  ["type", "name", "description", "value", "timestamp", "changes_since_flush", "history"]

/--
The parts of an entry under their names.
-/
def fieldsOf (kind name : Json) (description : List Json) (value timestamp changes : Json)
    (history : List Json) : List (String × Json) :=
  ("type", kind) :: ("name", name) :: description.map ("description", ·)
    ++ ("value", value) :: ("timestamp", timestamp) :: ("changes_since_flush", changes)
      :: history.map ("history", ·)

/--
The ways of spelling an entry: its parts in their order as an array, from which only an empty
history may be left out, or under their names in any order, among any other members.
-/
inductive Spelled (e : Entry) : Json → Prop where
  | array {kind name description value timestamp changes : Json} {history : List Json}
    (h : e.PartsSpelled kind name [description] value timestamp changes history) :
    Spelled e (.array (kind :: name :: description :: value :: timestamp :: changes :: history))
  | object {kind name value timestamp changes j : Json} {description history : List Json}
    (h : e.PartsSpelled kind name description value timestamp changes history)
    (hj : j.HasFields names (fieldsOf kind name description value timestamp changes history)) :
    Spelled e j

end Entry

/--
Whether bytes spell entries: they are a way of writing an array, each of whose items is a way of
spelling an entry.
-/
def Spelled (es : List Entry) (bs : Bytes) : Prop :=
  ∃ items, (Json.array items).Written bs ∧ List.Forall₂ Entry.Spelled es items

end Snapshot

/-!
## What is spelled is read
-/

namespace Json

theorem text?_eq_some_iff {j : Json} {s : String} : j.text? = some s ↔ j.TextSpelled s := by
  constructor
  . intro h
    cases j with
    | string ps => exact .string (Piece.text?_eq_some_iff.1 h)
    | _ => cases h
  . rintro ⟨h⟩
    exact Piece.text?_eq_some_iff.2 h

theorem int?_eq_some_iff {j : Json} {i : Int} : j.int? = some i ↔ j.IntegerSpelled i := by
  constructor
  . intro h
    cases j with
    | number n => exact .number h
    | _ => cases h
  . rintro ⟨h⟩
    exact h

theorem items?_eq_some_iff {j : Json} {items : List Json} :
    j.items? = some items ↔ j = .array items := by
  cases j <;> simp [items?]

end Json

theorem Value.ofNumeral?_eq_some_iff {n : Numeral} {v : Value} :
    ofNumeral? n = some v ↔ v.Spelled (.number n) := by
  unfold ofNumeral?
  constructor
  . intro h
    split at h
    . next i hi =>
      cases h
      obtain ⟨k, hk, hrange⟩ := Option.bind_eq_some_iff.1 hi
      rw [Integer.ofInt?_eq_some_iff.1 hrange] at hk
      exact .integer (.number hk)
    . next hnone =>
      obtain ⟨x, hx, rfl⟩ := Option.map_eq_some_iff.1 h
      refine .double ?_ hx
      intro i hi
      rw [hi, Option.bind_some, Integer.ofInt?_toInt] at hnone
      cases hnone
  . intro h
    cases h with
    | integer h =>
      cases h with
      | number h => rw [h, Option.bind_some, Integer.ofInt?_toInt]
    | double hinteger hx =>
      have hnone : n.toInt?.bind Integer.ofInt? = none := by
        rw [Option.bind_eq_none_iff]
        intro i hi
        rw [Option.eq_none_iff_forall_ne_some]
        intro k hk
        rw [Integer.ofInt?_eq_some_iff.1 hk] at hi
        exact hinteger k hi
      rw [hnone, hx]
      rfl
    | text h => cases h

theorem Value.ofJson?_eq_some_iff {j : Json} {v : Value} : ofJson? j = some v ↔ v.Spelled j := by
  constructor
  . intro h
    cases j with
    | number n => exact ofNumeral?_eq_some_iff.1 h
    | string ps =>
      obtain ⟨s, hs, rfl⟩ := Option.map_eq_some_iff.1 h
      exact .text (.string (Piece.text?_eq_some_iff.1 hs))
    | _ => cases h
  . intro h
    cases j with
    | number n => exact ofNumeral?_eq_some_iff.2 h
    | string ps =>
      cases h with
      | integer h => cases h
      | text h =>
        cases h with
        | string h =>
          show (Piece.text? ps).map text = _
          rw [Piece.text?_eq_some_iff.2 h, Option.map_some]
    | _ =>
      cases h with
      | integer h => cases h
      | text h => cases h

theorem Kind.ofJson?_eq_some_iff {j : Json} {k : Kind} : ofJson? j = some k ↔ k.Spelled j := by
  have hname {ps : List Piece} :
      (Piece.text? ps).bind ofName? = some k ↔ Piece.Spelled k.name ps := by
    rw [Option.bind_eq_some_iff, ← Piece.text?_eq_some_iff]
    simp only [ofName?_eq_some_iff, exists_eq_right]
  constructor
  . intro h
    unfold ofJson? at h
    split at h
    . exact .name (hname.1 h)
    . exact .member (hname.1 h)
    . cases h
  . rintro (h | h)
    . exact hname.2 h
    . exact hname.2 h

namespace Snapshot

theorem timestampOfJson?_eq_some_iff {j : Json} {t : Int64} :
    timestampOfJson? j = some t ↔ j.IntegerSpelled t.toInt := by
  unfold timestampOfJson?
  simp only [Option.bind_eq_some_iff, Json.int?_eq_some_iff, Integer.ofInt?_eq_some_iff,
    exists_eq_right]

theorem changesOfJson?_eq_some_iff {j : Json} {t : Tally} :
    changesOfJson? j = some t ↔ j.IntegerSpelled t.toNat := by
  have hnat {i : Int} :
      (if i < 0 then none else Tally.ofNat? i.toNat) = some t ↔ i = (t.toNat : Int) := by
    split
    . simp only [reduceCtorEq, false_iff]
      omega
    . rw [Tally.ofNat?_eq_some_iff]
      omega
  unfold changesOfJson?
  simp only [Option.bind_eq_some_iff, Json.int?_eq_some_iff, hnat, exists_eq_right]

theorem hasFields_record_iff {value timestamp j : Json} :
    j.HasFields recordNames [("value", value), ("timestamp", timestamp)] ↔
      ∃ ms, j.members? = some ms ∧ Json.named "value" ms = [value]
        ∧ Json.named "timestamp" ms = [timestamp] := by
  have hvalue : Json.named "value" [("value", value), ("timestamp", timestamp)] = [value] := rfl
  have htimestamp : Json.named "timestamp" [("value", value), ("timestamp", timestamp)]
      = [timestamp] := rfl
  rw [Json.hasFields_iff (by decide) (by simp [recordNames])]
  simp only [recordNames, List.forall_mem_cons, hvalue, htimestamp, List.perm_singleton,
    List.not_mem_nil, false_implies, implies_true, and_true]

theorem recordOfJson?_eq_some_iff {j : Json} {r : Record} :
    recordOfJson? j = some r ↔ RecordSpelled r j := by
  constructor
  . intro h
    unfold recordOfJson? at h
    split at h
    . obtain ⟨v, hv, h⟩ := Option.bind_eq_some_iff.1 h
      obtain ⟨t, ht, h⟩ := Option.bind_eq_some_iff.1 h
      cases h
      exact .array (Value.ofJson?_eq_some_iff.1 hv) (timestampOfJson?_eq_some_iff.1 ht)
    . obtain ⟨ms, hms, h⟩ := Option.bind_eq_some_iff.1 h
      obtain ⟨v, hv, h⟩ := Option.bind_eq_some_iff.1 h
      obtain ⟨t, ht, h⟩ := Option.bind_eq_some_iff.1 h
      cases h
      obtain ⟨value, hvalue, hv⟩ := Json.required?_eq_some_iff.1 hv
      obtain ⟨timestamp, htimestamp, ht⟩ := Json.required?_eq_some_iff.1 ht
      exact .object (Value.ofJson?_eq_some_iff.1 hv) (timestampOfJson?_eq_some_iff.1 ht)
        (hasFields_record_iff.2 ⟨ms, hms, hvalue, htimestamp⟩)
  . intro h
    cases h with
    | array hvalue htimestamp =>
      rw [← Value.ofJson?_eq_some_iff] at hvalue
      rw [← timestampOfJson?_eq_some_iff] at htimestamp
      simp only [recordOfJson?, hvalue, htimestamp]
      rfl
    | object hvalue htimestamp hj =>
      obtain ⟨ms, hms, hnamed, hnamed'⟩ := hasFields_record_iff.1 hj
      rw [← Value.ofJson?_eq_some_iff] at hvalue
      rw [← timestampOfJson?_eq_some_iff] at htimestamp
      obtain ⟨members, rfl, -⟩ := Json.members?_eq_some_iff.1 hms
      simp only [recordOfJson?, hms, Option.bind_eq_bind, Option.bind_some,
        Json.required?_of_named hnamed, Json.required?_of_named hnamed', hvalue, htimestamp]
      rfl

theorem historyOfJson?_eq_some_iff {j : Json} {rs : List Record} :
    historyOfJson? j = some rs ↔ HistorySpelled rs j := by
  unfold historyOfJson?
  simp only [Option.bind_eq_some_iff, Json.items?_eq_some_iff, mapM_eq_some_iff,
    recordOfJson?_eq_some_iff]
  constructor
  . rintro ⟨items, rfl, h⟩
    exact .array h.flip
  . rintro ⟨h⟩
    exact ⟨_, rfl, h.flip⟩

namespace Entry

theorem partsSpelled_iff {e : Entry} {kind name value timestamp changes : Json}
    {description history : List Json} :
    e.PartsSpelled kind name description value timestamp changes history ↔
      Kind.ofJson? kind = some e.kind ∧ name.text? = some e.name
        ∧ Json.Given (fun s j => j.text? = some s) "" e.description description
        ∧ Value.ofJson? value = some e.value ∧ timestampOfJson? timestamp = some e.timestamp
        ∧ changesOfJson? changes = some e.changes
        ∧ Json.Given (fun rs j => historyOfJson? j = some rs) [] e.history history := by
  simp only [Kind.ofJson?_eq_some_iff, Json.text?_eq_some_iff, Value.ofJson?_eq_some_iff,
    timestampOfJson?_eq_some_iff, changesOfJson?_eq_some_iff, historyOfJson?_eq_some_iff]
  constructor
  . rintro ⟨h₁, h₂, h₃, h₄, h₅, h₆, h₇⟩
    exact ⟨h₁, h₂, h₃, h₄, h₅, h₆, h₇⟩
  . rintro ⟨h₁, h₂, h₃, h₄, h₅, h₆, h₇⟩
    exact ⟨h₁, h₂, h₃, h₄, h₅, h₆, h₇⟩

theorem hasFields_fieldsOf_iff {kind name value timestamp changes j : Json}
    {description history : List Json} :
    j.HasFields names (fieldsOf kind name description value timestamp changes history) ↔
      ∃ ms, j.members? = some ms ∧ Json.named "type" ms = [kind] ∧ Json.named "name" ms = [name]
        ∧ (Json.named "description" ms).Perm description ∧ Json.named "value" ms = [value]
        ∧ Json.named "timestamp" ms = [timestamp]
        ∧ Json.named "changes_since_flush" ms = [changes]
        ∧ (Json.named "history" ms).Perm history := by
  have hknown : ∀ m ∈ fieldsOf kind name description value timestamp changes history,
      m.1 ∈ names := by
    unfold fieldsOf names
    simp only [List.mem_append, List.mem_cons, List.mem_map]
    rintro m ((rfl | rfl | ⟨_, _, rfl⟩) | rfl | rfl | rfl | ⟨_, _, rfl⟩) <;> simp
  rw [Json.hasFields_iff (by decide) hknown]
  simp (disch := decide) only [names, fieldsOf, List.forall_mem_cons, Json.named_append,
    Json.named_cons, Json.named_map_self, Json.named_map_of_ne]
  simp

theorem historyOfRest?_eq_some_iff {rest : List Json} {rs : List Record} :
    historyOfRest? rest = some rs
      ↔ Json.Given (fun rs j => historyOfJson? j = some rs) [] rs rest := by
  unfold historyOfRest?
  constructor
  . intro h
    split at h
    . cases h
      exact .silent
    . exact .said h
    . cases h
  . intro h
    cases h with
    | silent => rfl
    | said h => exact h

theorem ofItems?_eq_some_iff {items : List Json} {e : Entry} :
    ofItems? items = some e ↔ e.Spelled (.array items) := by
  constructor
  . intro h
    obtain ⟨kind, name, description, value, timestamp, changes, rest, rfl⟩ := exists_of_ofItems? h
    rw [ofItems?_eq, ofParts?_eq_some_iff, historyOfRest?_eq_some_iff] at h
    obtain ⟨hkind, hname, hdescription, hrest⟩ := h
    exact .array (partsSpelled_iff.2 ⟨hkind, hname, .said hdescription, hrest⟩)
  . intro h
    cases h with
    | array h =>
      obtain ⟨hkind, hname, hdescription, hrest⟩ := partsSpelled_iff.1 h
      rw [ofItems?_eq, ofParts?_eq_some_iff, historyOfRest?_eq_some_iff]
      exact ⟨hkind, hname, Json.given_singleton_iff.1 hdescription, hrest⟩
    | object h hj =>
      obtain ⟨members, -, hmembers, -⟩ := hj
      cases hmembers

theorem ofMembers?_eq_some_iff {ms : List (String × Json)} {e : Entry} :
    ofMembers? ms = some e ↔
      ∃ kind name value timestamp changes, Json.named "type" ms = [kind]
        ∧ Json.named "name" ms = [name] ∧ Json.named "value" ms = [value]
        ∧ Json.named "timestamp" ms = [timestamp]
        ∧ Json.named "changes_since_flush" ms = [changes]
        ∧ e.PartsSpelled kind name (Json.named "description" ms) value timestamp changes
          (Json.named "history" ms) := by
  simp only [ofMembers?_eq, ofParts?_eq_some_iff, Json.required?_eq_some_iff,
    Json.optional?_eq_some_iff, partsSpelled_iff]
  constructor
  . rintro ⟨⟨kind, hkind, hkind'⟩, ⟨name, hname, hname'⟩, hdescription, ⟨value, hvalue, hvalue'⟩,
      ⟨timestamp, htimestamp, htimestamp'⟩, ⟨changes, hchanges, hchanges'⟩, hhistory⟩
    exact ⟨kind, name, value, timestamp, changes, hkind, hname, hvalue, htimestamp, hchanges,
      hkind', hname', hdescription, hvalue', htimestamp', hchanges', hhistory⟩
  . rintro ⟨kind, name, value, timestamp, changes, hkind, hname, hvalue, htimestamp, hchanges,
      hkind', hname', hdescription, hvalue', htimestamp', hchanges', hhistory⟩
    exact ⟨⟨kind, hkind, hkind'⟩, ⟨name, hname, hname'⟩, hdescription, ⟨value, hvalue, hvalue'⟩,
      ⟨timestamp, htimestamp, htimestamp'⟩, ⟨changes, hchanges, hchanges'⟩, hhistory⟩

/--
Entries are read from the values that spell them.
-/
theorem ofJson?_eq_some_iff {j : Json} {e : Entry} : ofJson? j = some e ↔ e.Spelled j := by
  have hobject : j.members?.bind ofMembers? = some e ↔
      ∃ kind name description value timestamp changes history,
        e.PartsSpelled kind name description value timestamp changes history
          ∧ j.HasFields names (fieldsOf kind name description value timestamp changes history) := by
    simp only [Option.bind_eq_some_iff, ofMembers?_eq_some_iff, hasFields_fieldsOf_iff]
    constructor
    . rintro ⟨ms, hms, kind, name, value, timestamp, changes, hkind, hname, hvalue, htimestamp,
        hchanges, hparts⟩
      exact ⟨kind, name, _, value, timestamp, changes, _, hparts, ms, hms, hkind, hname, .rfl,
        hvalue, htimestamp, hchanges, .rfl⟩
    . rintro ⟨kind, name, description, value, timestamp, changes, history, hparts, ms, hms, hkind,
        hname, hdescription, hvalue, htimestamp, hchanges, hhistory⟩
      refine ⟨ms, hms, kind, name, value, timestamp, changes, hkind, hname, hvalue, htimestamp,
        hchanges, ?_⟩
      rwa [hparts.description.eq_of_perm hdescription, hparts.history.eq_of_perm hhistory]
  cases j with
  | array items => exact ofItems?_eq_some_iff
  | _ =>
    unfold ofJson?
    rw [hobject]
    constructor
    . rintro ⟨kind, name, description, value, timestamp, changes, history, hparts, hj⟩
      exact .object hparts hj
    . intro h
      cases h with
      | object hparts hj => exact ⟨_, _, _, _, _, _, _, hparts, hj⟩

end Entry

theorem entriesOfJson?_eq_some_iff {j : Json} {es : List Entry} :
    entriesOfJson? j = some es ↔
      ∃ items, j = .array items ∧ List.Forall₂ Entry.Spelled es items := by
  unfold entriesOfJson?
  simp only [Option.bind_eq_some_iff, Json.items?_eq_some_iff, mapM_eq_some_iff,
    Entry.ofJson?_eq_some_iff]
  constructor
  . rintro ⟨items, hj, h⟩
    exact ⟨items, hj, h.flip⟩
  . rintro ⟨items, hj, h⟩
    exact ⟨items, hj, h.flip⟩

/--
Bytes are read as the entries that they spell.
-/
theorem entries?_eq_some_iff {bs : Bytes} {es : List Entry} :
    entries? bs = some es ↔ Spelled es bs := by
  unfold entries? Spelled
  simp only [Option.bind_eq_some_iff, Json.ofBytes?_eq_some_iff, entriesOfJson?_eq_some_iff]
  constructor
  . rintro ⟨j, hj, items, rfl, h⟩
    exact ⟨items, hj, h⟩
  . rintro ⟨items, hj, h⟩
    exact ⟨_, hj, items, rfl, h⟩

/-!
## What spells nothing
-/

theorem not_textSpelled_null (s : String) : ¬Json.null.TextSpelled s := nofun

theorem not_integerSpelled_null (i : Int) : ¬Json.null.IntegerSpelled i := nofun

theorem not_kindSpelled_null (k : Kind) : ¬k.Spelled .null := nofun

theorem not_valueSpelled_null (v : Value) : ¬v.Spelled .null := by
  intro h
  cases h with
  | integer h => exact not_integerSpelled_null _ h
  | text h => exact not_textSpelled_null _ h

theorem not_historySpelled_null (rs : List Record) : ¬HistorySpelled rs .null := nofun

def Entry.requiredNames : List String :=
  ["type", "name", "value", "timestamp", "changes_since_flush"]

theorem Entry.sane_of_ofMembers? {ms : List (String × Json)} {e : Entry}
    (h : ofMembers? ms = some e) : Json.Sane names requiredNames ms := by
  obtain ⟨kind, name, value, timestamp, changes, hkind, hname, hvalue, htimestamp, hchanges,
    hparts⟩ := ofMembers?_eq_some_iff.1 h
  constructor
  . simp only [names, List.forall_mem_cons, hkind, hname, hvalue, htimestamp, hchanges]
    exact ⟨Json.clean_singleton not_kindSpelled_null hparts.kind,
      Json.clean_singleton not_textSpelled_null hparts.name,
      hparts.description.clean not_textSpelled_null,
      Json.clean_singleton not_valueSpelled_null hparts.value,
      Json.clean_singleton not_integerSpelled_null hparts.timestamp,
      Json.clean_singleton not_integerSpelled_null hparts.changes,
      hparts.history.clean not_historySpelled_null, nofun⟩
  . simp [requiredNames, hkind, hname, hvalue, htimestamp, hchanges]

theorem Entry.Spelled.not_flawed {e : Entry} {members : List (List Piece × Json)}
    (h : e.Spelled (.object members)) : ¬Json.Flawed names requiredNames members := by
  obtain ⟨ms, hms, he⟩ := Option.bind_eq_some_iff.1 (ofJson?_eq_some_iff.2 h)
  exact (sane_of_ofMembers? he).not_flawed hms

theorem RecordSpelled.not_flawed {r : Record} {members : List (List Piece × Json)}
    (h : RecordSpelled r (.object members)) :
    ¬Json.Flawed recordNames recordNames members := by
  cases h with
  | object hvalue htimestamp hj =>
    obtain ⟨ms, hms, hnamed, hnamed'⟩ := hasFields_record_iff.1 hj
    have hsane : Json.Sane recordNames recordNames ms := by
      constructor
      . simp only [recordNames, List.forall_mem_cons, hnamed, hnamed']
        exact ⟨Json.clean_singleton not_valueSpelled_null hvalue,
          Json.clean_singleton not_integerSpelled_null htimestamp, nofun⟩
      . simp [recordNames, hnamed, hnamed']
    exact hsane.not_flawed hms

/--
The records in the history of what is to spell an entry.
-/
inductive HasRecords : Json → List Json → Prop where
  | array (kind name description value timestamp changes : Json) (records : List Json) :
    HasRecords (.array [kind, name, description, value, timestamp, changes, .array records]) records
  | object {members : List (List Piece × Json)} {ps : List Piece} {records : List Json}
    (hps : Piece.Spelled "history" ps) (hmem : (ps, .array records) ∈ members) :
    HasRecords (.object members) records

theorem Entry.Spelled.historySpelled {e : Entry} {j : Json} (h : e.Spelled j) {records : List Json}
    (hrecords : HasRecords j records) : HistorySpelled e.history (.array records) := by
  cases hrecords with
  | array kind name description value timestamp changes records =>
    cases h with
    | array hparts => exact Json.given_singleton_iff.1 hparts.history
    | object hparts hj =>
      obtain ⟨members, -, hmembers, -⟩ := hj
      cases hmembers
  | object hps hmem =>
    obtain ⟨ms, hms, he⟩ := Option.bind_eq_some_iff.1 (ofJson?_eq_some_iff.2 h)
    obtain ⟨kind, name, value, timestamp, changes, -, -, -, -, -, hparts⟩ :=
      ofMembers?_eq_some_iff.1 he
    exact hparts.history.of_mem (Json.mem_named_of_members? hms hmem hps)

theorem HistorySpelled.exists_of_mem {rs : List Record} {records : List Json}
    (h : HistorySpelled rs (.array records)) {j : Json} (hj : j ∈ records) :
    ∃ r, RecordSpelled r j := by
  cases h with
  | array h => exact exists_forall₂_iff.1 ⟨rs, h.flip⟩ j hj

theorem Spelled.exists_of_mem {es : List Entry} {bs : Bytes} (h : Spelled es bs)
    {items : List Json} (hbs : (Json.array items).Written bs) {j : Json} (hj : j ∈ items) :
    ∃ e : Entry, e.Spelled j := by
  obtain ⟨items', hbs', hall⟩ := h
  -- The bytes are a way of writing one value only.
  rw [← Json.ofBytes?_eq_some_iff] at hbs hbs'
  cases hbs.symm.trans hbs'
  exact exists_forall₂_iff.1 ⟨es, hall.flip⟩ j hj

/-!
## Decoding
-/

/--
What is encoded of metrics is one of the spellings of what they are written as.
-/
theorem spelled_encode (ts : List Tracked) :
    Spelled (ts.map fun t => (Entry.ofTracked t).written) (encode ts) :=
  entries?_eq_some_iff.1 (entries?_encode ts)

theorem decode_eq_decode_iff {bs : Bytes} : decode bs = .error .decode ↔ ¬∃ es, Spelled es bs := by
  simp only [← entries?_eq_some_iff]
  unfold decode
  cases entries? bs with
  | none => simp
  | some es =>
    dsimp only
    cases checkEntries [] es <;> simp

/--
All spellings of the same entries are decoded alike: as the metrics that the entries tell of, or
with the first fault that they have. What does not spell any entries is not decoded. There is none
spelled by an array in which the object for an entry, or for a record in its history, has one of the
members that count twice, lacks one that may not be left out, or has null for one.
-/
theorem decoded_as_spelled :
    (∀ es bs bs', Spelled es bs → Spelled es bs' → decode bs = decode bs')
      ∧ (∀ es bs, Spelled es bs →
        (∀ ts, decode bs = .ok ts ↔ checkEntries [] es = .ok ts)
          ∧ ∀ err, decode bs = .error err ↔ ∃ f, checkEntries [] es = .error f ∧ err = .invalid f)
      ∧ (∀ bs, decode bs = .error .decode ↔ ¬∃ es, Spelled es bs)
      ∧ ∀ bs items, (Json.array items).Written bs →
        (∀ members, .object members ∈ items →
          Json.Flawed Entry.names Entry.requiredNames members → decode bs = .error .decode)
          ∧ ∀ item records members, item ∈ items → HasRecords item records →
            .object members ∈ records → Json.Flawed recordNames recordNames members →
            decode bs = .error .decode := by
  refine ⟨?_, ?_, fun _ => decode_eq_decode_iff, ?_⟩
  . intro es bs bs' h h'
    unfold decode
    rw [entries?_eq_some_iff.2 h, entries?_eq_some_iff.2 h']
  . intro es bs h
    have hes := entries?_eq_some_iff.2 h
    refine ⟨?_, fun _ => decode_eq_error_iff hes⟩
    intro ts
    rw [decode_eq_ok_iff]
    simp only [hes, Option.some.injEq, exists_eq_left']
  . intro bs items hbs
    constructor
    . intro members hmem hflawed
      rw [decode_eq_decode_iff]
      rintro ⟨es, hes⟩
      obtain ⟨e, he⟩ := hes.exists_of_mem hbs hmem
      exact he.not_flawed hflawed
    . intro item records members hitem hrecords hmem hflawed
      rw [decode_eq_decode_iff]
      rintro ⟨es, hes⟩
      obtain ⟨e, he⟩ := hes.exists_of_mem hbs hitem
      obtain ⟨r, hr⟩ := (he.historySpelled hrecords).exists_of_mem hmem
      exact hr.not_flawed hflawed

/--
An entry as an array, as an object that says the same, and as an object with a description that is
null.
-/
theorem decoded_as_spelled_queue :
    let items := Bytes.ofString <|
      "[[\"integer_gauge\",\"queue\",\"\",5,7,1,[[2,6]]]]"
    let members := Bytes.ofString <|
      "[ \x7b\"unit\":[\x7b\"value\":null\x7d],\"value\":5,\"history\":[\x7b\"timestamp\":6,"
        ++ "\"value\":2\x7d],\n\"n\\u0061me\":\"\\u0071ueue\",\"timestamp\":7,"
        ++ "\"type\":\x7b\"integer_gauge\":null\x7d,\"changes_since_flush\":1\x7d ]"
    let withNull := Bytes.ofString <|
      "[\x7b\"type\":\"integer_gauge\",\"name\":\"queue\",\"description\":null,\"value\":5,"
        ++ "\"timestamp\":7,\"changes_since_flush\":1\x7d]"
    decode items = .ok [⟨⟨"queue", "", .integerGauge 5, 7⟩, 1, [⟨.integer 2, 6⟩]⟩]
      ∧ decode members = decode items ∧ decode withNull = .error .decode := by
  intro items members withNull
  have hitems : Spelled [⟨.integerGauge, "queue", "", .integer 5, 7, 1, [⟨.integer 2, 6⟩]⟩] items :=
    entries?_eq_some_iff.1 (by decide +kernel)
  have hmembers :
      Spelled [⟨.integerGauge, "queue", "", .integer 5, 7, 1, [⟨.integer 2, 6⟩]⟩] members :=
    entries?_eq_some_iff.1 (by decide +kernel)
  have hok := ((decoded_as_spelled.2.1 _ _ hitems).1 _).2 rfl
  have hsame := decoded_as_spelled.1 _ _ _ hmembers hitems
  let described : List (List Piece × Json) :=
    [Json.member "type" (textJson "integer_gauge"), Json.member "name" (textJson "queue"),
      Json.member "description" .null, Json.member "value" (integerJson 5),
      Json.member "timestamp" (integerJson 7), Json.member "changes_since_flush" (integerJson 1)]
  have hwritten : (Json.array [.object described]).Written withNull :=
    Json.Token.spread_of_list? (by decide +kernel)
  have hflawed : Json.Flawed Entry.names Entry.requiredNames described :=
    .null (by decide) (by simp [described, Json.member]) (Piece.spelled_ofString "description")
  have herror := (decoded_as_spelled.2.2.2 _ _ hwritten).1 described (by simp) hflawed
  exact ⟨hok, hsame, herror⟩

end Snapshot

end Metering
