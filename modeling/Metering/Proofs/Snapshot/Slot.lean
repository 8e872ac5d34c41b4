import Metering.Proofs.Json.Around
import Metering.Snapshot.Wire

/-!
This module contains the places in the JSON of an entry from which values are read, and that an
entry is read from around such a place in the same way whatever stands there.
-/

namespace Metering

namespace Snapshot

open Json (Piece)

/-!
## Places
-/

inductive Place where
  | value
  | history (i : Nat)
  deriving DecidableEq

def Entry.put (v : Value) (e : Entry) : Place → Entry
  | .value => { e with value := v }
  | .history i => { e with history := e.history.modify i fun r => { r with value := v } }

/--
The value at a place, if there is one.
-/
def Place.of? (v : Value) (rs : List Record) : Place → Option Value
  | .value => some v
  | .history i => rs[i]?.map Record.value

theorem Place.isSome_of?_history_iff {v : Value} {rs : List Record} {i : Nat} :
    ((Place.history i).of? v rs).isSome ↔ i < rs.length := by
  simp [of?]

def Entry.valueAt? (e : Entry) (place : Place) : Option Value :=
  place.of? e.value e.history

/--
The JSON of a record around its value.
-/
inductive RecordSlot : (Json → Json) → Prop where
  | item (timestamp : Json) : RecordSlot fun j => .array [j, timestamp]
  | member {name : List Piece} (hname : Piece.text? name = some "value")
    (before after : List (List Piece × Json)) :
    RecordSlot fun j => .object (before ++ (name, j) :: after)

/--
The JSON of a history around the value of its record `i`.
-/
inductive HistorySlot (i : Nat) : (Json → Json) → Prop where
  | record {slot : Json → Json} (h : RecordSlot slot) {before : List Json}
    (hbefore : before.length = i) (after : List Json) :
    HistorySlot i fun j => .array (before ++ slot j :: after)

/--
The kind that the members of an entry tell.
-/
def kindOfMembers? (members : List (List Piece × Json)) : Option Kind :=
  (Json.members? (.object members)).bind fun ms => Json.required? ms "type" Kind.ofJson?

/--
The JSON of an entry of a kind around one of its values.
-/
inductive Slot (k : Kind) : Place → (Json → Json) → Prop where
  | item {kind : Json} (hkind : Kind.ofJson? kind = some k)
    (name description timestamp changes : Json) (rest : List Json) :
    Slot k .value fun j =>
      .array (kind :: name :: description :: j :: timestamp :: changes :: rest)
  | member {name : List Piece} (hname : Piece.text? name = some "value")
    {before after : List (List Piece × Json)} (hkind : kindOfMembers? (before ++ after) = some k) :
    Slot k .value fun j => .object (before ++ (name, j) :: after)
  | historyItem {kind : Json} (hkind : Kind.ofJson? kind = some k)
    (name description value timestamp changes : Json) {i : Nat} {slot : Json → Json}
    (h : HistorySlot i slot) :
    Slot k (.history i) fun j =>
      .array [kind, name, description, value, timestamp, changes, slot j]
  | historyMember {name : List Piece} (hname : Piece.text? name = some "history")
    {before after : List (List Piece × Json)} (hkind : kindOfMembers? (before ++ after) = some k)
    {i : Nat} {slot : Json → Json} (h : HistorySlot i slot) :
    Slot k (.history i) fun j => .object (before ++ (name, slot j) :: after)

/-!
## Reading around a place
-/

variable {slot : Json → Json} {i : Nat}

theorem RecordSlot.recordOfJson? (h : RecordSlot slot) :
    ∃ timestamp? : Option Int64, ∀ j, Snapshot.recordOfJson? (slot j)
      = (Value.ofJson? j).bind fun v => timestamp?.map fun timestamp => ⟨v, timestamp⟩ := by
  cases h with
  | item timestamp =>
    exists timestampOfJson? timestamp
    intro j
    simp only [Snapshot.recordOfJson?]
    cases timestampOfJson? timestamp <;> rfl
  | @member name hname before after =>
    have hne : "value" ≠ "timestamp" := by decide
    simp only [Snapshot.recordOfJson?, Json.members?_eq, mapM_middle,
      Json.memberOf?_of_text? hname, Option.bind_some, Option.bind_eq_bind, Option.pure_def]
    cases around? Json.memberOf? before after with
    | none => exact ⟨none, fun j => by simp⟩
    | some p =>
      exists if Json.named "value" (p.1 ++ p.2) = [] then
        Json.required? (p.1 ++ p.2) "timestamp" timestampOfJson? else none
      intro j
      simp only [Option.map_some, Option.bind_some, Json.required?_middle,
        Json.required?_middle_of_ne hne]
      split
      . cases Json.required? (p.1 ++ p.2) "timestamp" timestampOfJson? <;> rfl
      . simp

theorem HistorySlot.historyOfJson? (h : HistorySlot i slot) :
    ∃ records? : Option (List Record), (∀ rs ∈ records?, i < rs.length)
      ∧ ∀ j, Snapshot.historyOfJson? (slot j) = (Value.ofJson? j).bind fun v =>
        records?.map fun rs => rs.modify i fun r => { r with value := v } := by
  cases h with
  | @record slot h before hbefore after =>
    subst hbefore
    obtain ⟨timestamp?, hread⟩ := h.recordOfJson?
    simp only [Snapshot.historyOfJson?, Json.items?, Option.bind_some, mapM_middle, hread]
    cases timestamp? with
    | none => exact ⟨none, nofun, fun j => by simp⟩
    | some timestamp =>
      cases haround : around? Snapshot.recordOfJson? before after with
      | none => exact ⟨none, nofun, fun j => by simp⟩
      | some p =>
        have hlength := length_of_around? haround
        -- Any value will do until the one that is read takes its place.
        refine ⟨some (p.1 ++ ⟨.integer 0, timestamp⟩ :: p.2), ?_, ?_⟩
        . rintro rs ⟨⟩
          rw [List.length_append, List.length_cons]
          omega
        . intro j
          rw [← hlength]
          simp only [Option.map_some, modify_middle]
          cases Value.ofJson? j <;> rfl

/-!
## Entries from their parts
-/

/--
An entry, if all of its parts are read.
-/
def Entry.ofParts? (kind : Option Kind) (name description : Option String) (value : Option Value)
    (timestamp : Option Int64) (changes : Option Tally) (history : Option (List Record)) :
    Option Entry := do
  let kind ← kind
  let name ← name
  let description ← description
  let value ← value
  let timestamp ← timestamp
  let changes ← changes
  let history ← history
  return ⟨kind, name, description, value, timestamp, changes, history⟩

def historyOfRest? : List Json → Option (List Record)
  | [] => some []
  | [history] => historyOfJson? history
  | _ => none

theorem Entry.ofItems?_eq (kind name description value timestamp changes : Json)
    (rest : List Json) :
    ofItems? (kind :: name :: description :: value :: timestamp :: changes :: rest)
      = ofParts? (Kind.ofJson? kind) name.text? description.text? (Value.ofJson? value)
        (timestampOfJson? timestamp) (changesOfJson? changes) (historyOfRest? rest) := by
  unfold historyOfRest?
  cases rest with
  | nil => rfl
  | cons history rest => cases rest <;> rfl

theorem Entry.ofMembers?_eq (ms : List (String × Json)) :
    ofMembers? ms
      = ofParts? (Json.required? ms "type" Kind.ofJson?) (Json.required? ms "name" Json.text?)
        (Json.optional? ms "description" "" Json.text?)
        (Json.required? ms "value" Value.ofJson?) (Json.required? ms "timestamp" timestampOfJson?)
        (Json.required? ms "changes_since_flush" changesOfJson?)
        (Json.optional? ms "history" [] historyOfJson?) := rfl

section

variable {kind : Option Kind} {name description : Option String} {value : Option Value}
  {timestamp : Option Int64} {changes : Option Tally} {history : Option (List Record)}

theorem Entry.ofParts?_eq_some_iff {e : Entry} :
    ofParts? kind name description value timestamp changes history = some e ↔
      kind = some e.kind ∧ name = some e.name ∧ description = some e.description
        ∧ value = some e.value ∧ timestamp = some e.timestamp ∧ changes = some e.changes
        ∧ history = some e.history := by
  unfold ofParts?
  simp only [Option.bind_eq_bind, Option.bind_eq_some_iff]
  constructor
  . rintro ⟨k, hk, n, hn, d, hd, v, hv, t, ht, c, hc, h, hh, he⟩
    cases he
    exact ⟨hk, hn, hd, hv, ht, hc, hh⟩
  . rintro ⟨hk, hn, hd, hv, ht, hc, hh⟩
    exact ⟨_, hk, _, hn, _, hd, _, hv, _, ht, _, hc, _, hh, rfl⟩

/--
What is read of the other parts stays the same whatever value is read.
-/
theorem Entry.ofParts?_around_value {k : Kind} :
    ∃ e? : Option Entry, (∀ e ∈ e?, e.kind = k ∧ (e.valueAt? .value).isSome)
      ∧ ∀ value, ofParts? (some k) name description value timestamp changes history
        = value.bind fun v => e?.map fun e => e.put v .value := by
  exists ofParts? (some k) name description (some (.integer 0)) timestamp changes history
  constructor
  . intro e he
    exact ⟨(Option.some.inj (ofParts?_eq_some_iff.1 he).1).symm, rfl⟩
  . intro value
    cases value with
    | none => simp [ofParts?]
    | some v =>
      simp only [ofParts?, Entry.put, Option.pure_def, Option.bind_eq_bind, Option.bind_some,
        Option.map_bind, Function.comp_def, Option.map_some]

/--
The same for a history in which one value is read and put in its place.
-/
theorem Entry.ofParts?_around_history {k : Kind} {i : Nat} {records? : Option (List Record)}
    (hwithin : ∀ rs ∈ records?, i < rs.length) :
    ∃ e? : Option Entry, (∀ e ∈ e?, e.kind = k ∧ (e.valueAt? (.history i)).isSome)
      ∧ ∀ v?, ofParts? (some k) name description value timestamp changes
          ((v? : Option Value).bind fun v =>
            records?.map fun rs => rs.modify i fun r => { r with value := v })
        = v?.bind fun v => e?.map fun e => e.put v (.history i) := by
  exists ofParts? (some k) name description value timestamp changes records?
  constructor
  . intro e he
    obtain ⟨he, -, -, -, -, -, hhistory⟩ := ofParts?_eq_some_iff.1 he
    exact ⟨(Option.some.inj he).symm, Place.isSome_of?_history_iff.2 (hwithin _ hhistory)⟩
  . intro v?
    cases v? with
    | none => simp [ofParts?]
    | some v =>
      simp only [ofParts?, Entry.put, Option.pure_def, Option.bind_eq_bind, Option.bind_some,
        Option.bind_map, Option.map_bind, Function.comp_def, Option.map_some]

end

/-!
## Reading an entry around a place
-/

theorem kindOfMembers?_eq {before after : List (List Piece × Json)}
    {p : List (String × Json) × List (String × Json)}
    (h : around? Json.memberOf? before after = some p) :
    kindOfMembers? (before ++ after) = Json.required? (p.1 ++ p.2) "type" Kind.ofJson? := by
  unfold kindOfMembers?
  rw [Json.members?_eq, mapM_append_eq_around?, h, Option.map_some, Option.bind_some]

/--
What is read of an entry apart from the value at a place does not depend on that value.
-/
theorem Slot.ofJson? {k : Kind} {place : Place} (h : Slot k place slot) :
    ∃ e? : Option Entry, (∀ e ∈ e?, e.kind = k ∧ (e.valueAt? place).isSome)
      ∧ ∀ j, Entry.ofJson? (slot j) = (Value.ofJson? j).bind fun v =>
        e?.map fun e => e.put v place := by
  have hobject (ms : List (List Piece × Json)) : Entry.ofJson? (.object ms)
      = (ms.mapM Json.memberOf?).bind Entry.ofMembers? := rfl
  cases h with
  | item hkind name description timestamp changes rest =>
    simp only [Entry.ofJson?, Entry.ofItems?_eq, hkind]
    obtain ⟨e?, he, hput⟩ := Entry.ofParts?_around_value
    exact ⟨e?, he, fun j => hput (Value.ofJson? j)⟩
  | @member name hname before after hkind =>
    simp only [hobject, mapM_middle, Json.memberOf?_of_text? hname, Option.bind_some]
    cases haround : around? Json.memberOf? before after with
    | none => exact ⟨none, nofun, fun j => by simp⟩
    | some p =>
      rw [kindOfMembers?_eq haround] at hkind
      simp (disch := decide) only [Option.map_some, Option.bind_some, Entry.ofMembers?_eq,
        Json.required?_middle, Json.required?_middle_of_ne, Json.optional?_middle_of_ne, hkind]
      by_cases hnone : Json.named "value" (p.1 ++ p.2) = []
      . simp only [if_pos hnone]
        obtain ⟨e?, he, hput⟩ := Entry.ofParts?_around_value
        exact ⟨e?, he, fun j => hput (Value.ofJson? j)⟩
      . simp only [if_neg hnone]
        exact ⟨none, nofun, fun j => by simp [Entry.ofParts?]⟩
  | historyItem hkind name description value timestamp changes h =>
    obtain ⟨records?, hwithin, hread⟩ := h.historyOfJson?
    simp only [Entry.ofJson?, Entry.ofItems?_eq, hkind, historyOfRest?, hread]
    obtain ⟨e?, he, hput⟩ := Entry.ofParts?_around_history hwithin
    exact ⟨e?, he, fun j => hput (Value.ofJson? j)⟩
  | @historyMember name hname before after hkind i slot h =>
    obtain ⟨records?, hwithin, hread⟩ := h.historyOfJson?
    simp only [hobject, mapM_middle, Json.memberOf?_of_text? hname, Option.bind_some]
    cases haround : around? Json.memberOf? before after with
    | none => exact ⟨none, nofun, fun j => by simp⟩
    | some p =>
      rw [kindOfMembers?_eq haround] at hkind
      simp (disch := decide) only [Option.map_some, Option.bind_some, Entry.ofMembers?_eq,
        Json.optional?_middle, Json.required?_middle_of_ne, Json.optional?_middle_of_ne, hkind]
      by_cases hnone : Json.named "history" (p.1 ++ p.2) = []
      . simp only [if_pos hnone, hread]
        obtain ⟨e?, he, hput⟩ := Entry.ofParts?_around_history hwithin
        exact ⟨e?, he, fun j => hput (Value.ofJson? j)⟩
      . simp only [if_neg hnone]
        exact ⟨none, nofun, fun j => by simp [Entry.ofParts?]⟩

/-!
## Every value that is read stands in such a place
-/

theorem RecordSlot.exists_of_recordOfJson? {j : Json} {r : Record}
    (h : Snapshot.recordOfJson? j = some r) :
    ∃ slot v, RecordSlot slot ∧ slot v = j ∧ Value.ofJson? v = some r.value := by
  unfold Snapshot.recordOfJson? at h
  split at h
  . next value timestamp =>
    obtain ⟨v, hv, h⟩ := Option.bind_eq_some_iff.1 h
    obtain ⟨t, -, h⟩ := Option.bind_eq_some_iff.1 h
    cases h
    exact ⟨_, value, .item timestamp, rfl, hv⟩
  . obtain ⟨ms, hms, h⟩ := Option.bind_eq_some_iff.1 h
    obtain ⟨v, hv, h⟩ := Option.bind_eq_some_iff.1 h
    obtain ⟨t, -, h⟩ := Option.bind_eq_some_iff.1 h
    cases h
    obtain ⟨value, hnamed, hvalue⟩ := Json.named_of_required? hv
    cases j with
    | object members =>
      obtain ⟨before, ps, after, -, rfl, htext, -⟩ := Json.exists_member_of_named hms hnamed
      exact ⟨_, value, .member htext before after, rfl, hvalue⟩
    | _ => cases hms

theorem HistorySlot.exists_of_historyOfJson? {j : Json} {rs : List Record}
    (h : Snapshot.historyOfJson? j = some rs) {r : Record} (hr : rs[i]? = some r) :
    ∃ slot v, HistorySlot i slot ∧ slot v = j ∧ Value.ofJson? v = some r.value := by
  cases j with
  | array items =>
    obtain ⟨hi, rfl⟩ := List.getElem?_eq_some_iff.1 hr
    have hrs : rs = rs.take i ++ rs[i] :: rs.drop (i + 1) := by
      rw [← List.drop_eq_getElem_cons, List.take_append_drop]
    have hitems : items.mapM Snapshot.recordOfJson? = some rs := h
    rw [hrs] at hitems
    obtain ⟨before, j, after, rfl, hj, haround⟩ := exists_of_mapM_eq_middle hitems
    obtain ⟨slot, v, hslot, rfl, hv⟩ := RecordSlot.exists_of_recordOfJson? hj
    have hlength := length_of_around? haround
    rw [List.length_take_of_le (by omega)] at hlength
    exact ⟨_, v, .record hslot hlength.symm after, rfl, hv⟩
  | _ => cases h

theorem exists_of_ofItems? {items : List Json} {e : Entry} (h : Entry.ofItems? items = some e) :
    ∃ kind name description value timestamp changes rest,
      items = kind :: name :: description :: value :: timestamp :: changes :: rest := by
  unfold Entry.ofItems? at h
  split at h
  . exact ⟨_, _, _, _, _, _, _, rfl⟩
  . cases h

/--
Each value of an entry is read from one of the places, so these are all that there are.
-/
theorem Slot.exists_of_ofJson? {j : Json} {e : Entry} (h : Entry.ofJson? j = some e)
    {place : Place} {w : Value} (hw : e.valueAt? place = some w) :
    ∃ slot v, Slot e.kind place slot ∧ slot v = j ∧ Value.ofJson? v = some w := by
  cases j with
  | array items =>
    obtain ⟨kind, name, description, value, timestamp, changes, rest, rfl⟩ := exists_of_ofItems? h
    simp only [Entry.ofJson?, Entry.ofItems?_eq, Entry.ofParts?_eq_some_iff] at h
    obtain ⟨hkind, -, -, hvalue, -, -, hhistory⟩ := h
    cases place with
    | value =>
      cases hw
      exact ⟨_, value, .item hkind name description timestamp changes rest, rfl, hvalue⟩
    | history i =>
      obtain ⟨r, hr, rfl⟩ := Option.map_eq_some_iff.1 hw
      unfold historyOfRest? at hhistory
      split at hhistory
      . rw [← Option.some.inj hhistory] at hr
        cases hr
      . obtain ⟨slot, v, hslot, rfl, hv⟩ := HistorySlot.exists_of_historyOfJson? hhistory hr
        exact ⟨_, v, .historyItem hkind name description value timestamp changes hslot, rfl, hv⟩
      . cases hhistory
  | object members =>
    obtain ⟨ms, hms, h⟩ := Option.bind_eq_some_iff.1 h
    rw [Entry.ofMembers?_eq, Entry.ofParts?_eq_some_iff] at h
    obtain ⟨hkind, -, -, hvalue, -, -, hhistory⟩ := h
    cases place with
    | value =>
      cases hw
      obtain ⟨value, hnamed, hv⟩ := Json.named_of_required? hvalue
      obtain ⟨before, ps, after, p, rfl, htext, haround, rfl⟩ :=
        Json.exists_member_of_named hms hnamed
      rw [Json.required?_middle_of_ne (by decide)] at hkind
      exact ⟨_, value, .member htext (kindOfMembers?_eq haround ▸ hkind), rfl, hv⟩
    | history i =>
      obtain ⟨r, hr, rfl⟩ := Option.map_eq_some_iff.1 hw
      unfold Json.optional? at hhistory
      split at hhistory
      . rw [← Option.some.inj hhistory] at hr
        cases hr
      . next history hnamed =>
        obtain ⟨before, ps, after, p, rfl, htext, haround, rfl⟩ :=
          Json.exists_member_of_named hms hnamed
        rw [Json.required?_middle_of_ne (by decide)] at hkind
        obtain ⟨slot, v, hslot, rfl, hv⟩ := HistorySlot.exists_of_historyOfJson? hhistory hr
        exact ⟨_, v, .historyMember htext (kindOfMembers?_eq haround ▸ hkind) hslot, rfl, hv⟩
      . cases hhistory
  | _ => cases h

end Snapshot

end Metering
