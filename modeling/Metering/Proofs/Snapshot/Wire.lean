import Metering.Proofs.Metric
import Metering.Snapshot.Wire

/-!
This module contains that an entry is read back from its JSON, with the values that are read back
for its values.
-/

namespace Metering

def Record.written (r : Record) : Record :=
  ⟨r.value.written, r.timestamp⟩

namespace Snapshot

def Entry.written (e : Entry) : Entry :=
  { e with value := e.value.written, history := e.history.map Record.written }

/-!
## Writing
-/

theorem wellFormed_integerJson (i : Int) : (integerJson i).WellFormed :=
  Json.wellFormed_number (Decimal.Numeral.wellFormed_ofInt i)

theorem wellFormed_textJson (s : String) : (textJson s).WellFormed :=
  Json.wellFormed_string s

def recordMembers (r : Record) : List (String × Json) :=
  [("value", r.value.toJson), ("timestamp", integerJson r.timestamp.toInt)]

theorem recordJson_eq (r : Record) :
    recordJson r = .object ((recordMembers r).map fun m => Json.member m.1 m.2) := rfl

theorem wellFormed_recordJson (r : Record) : (recordJson r).WellFormed := by
  rw [recordJson_eq]
  apply Json.wellFormed_object
  simp only [recordMembers, List.forall_mem_cons, List.not_mem_nil, false_implies, implies_true,
    and_true]
  exact ⟨r.value.wellFormed_toJson, wellFormed_integerJson _⟩

def Entry.fields (e : Entry) : List (String × Json) :=
  [("type", e.kind.toJson), ("name", textJson e.name), ("description", textJson e.description),
    ("value", e.value.toJson), ("timestamp", integerJson e.timestamp.toInt),
    ("changes_since_flush", integerJson e.changes.toNat)]

def Entry.members (e : Entry) : List (String × Json) :=
  e.fields ++ if e.history = [] then [] else [("history", .array (e.history.map recordJson))]

theorem Entry.toJson_eq (e : Entry) :
    e.toJson = .object (e.members.map fun m => Json.member m.1 m.2) := by
  unfold toJson members
  split
  . rfl
  . rfl

theorem Entry.wellFormed_fields (e : Entry) : ∀ m ∈ e.fields, m.2.WellFormed := by
  simp only [fields, List.forall_mem_cons, List.not_mem_nil, false_implies, implies_true, and_true]
  exact ⟨e.kind.wellFormed_toJson, wellFormed_textJson _, wellFormed_textJson _,
    e.value.wellFormed_toJson, wellFormed_integerJson _, wellFormed_integerJson _⟩

theorem Entry.wellFormed_toJson (e : Entry) : e.toJson.WellFormed := by
  rw [toJson_eq]
  apply Json.wellFormed_object
  intro m hm
  unfold members at hm
  cases List.mem_append.1 hm with
  | inl hm => apply e.wellFormed_fields m hm
  | inr hm =>
    split at hm
    . cases hm
    . rw [List.mem_singleton.1 hm]
      apply Json.wellFormed_array
      intro j hj
      obtain ⟨r, -, rfl⟩ := List.mem_map.1 hj
      apply wellFormed_recordJson r

/-!
## Reading
-/

theorem int?_integerJson (i : Int) : (integerJson i).int? = some i :=
  Decimal.Numeral.toInt?_ofInt i

theorem timestampOfJson?_integerJson (n : Int64) :
    timestampOfJson? (integerJson n.toInt) = some n := by
  unfold timestampOfJson?
  rw [int?_integerJson, Option.bind_some, Integer.ofInt?_toInt]

theorem changesOfJson?_integerJson (t : Tally) :
    changesOfJson? (integerJson t.toNat) = some t := by
  unfold changesOfJson?
  rw [int?_integerJson, Option.bind_some, if_neg (by omega), Int.toNat_natCast, Tally.ofNat?_toNat]

theorem recordOfJson?_recordJson (r : Record) : recordOfJson? (recordJson r) = some r.written := by
  have hvalue : Json.named "value" (recordMembers r) = [r.value.toJson] := rfl
  have htimestamp : Json.named "timestamp" (recordMembers r)
      = [integerJson r.timestamp.toInt] := rfl
  rw [recordJson_eq]
  simp only [recordOfJson?, Json.members?_object, Option.bind_eq_bind, Option.bind_some,
    Json.required?_of_named hvalue, Json.required?_of_named htimestamp, Value.ofJson?_toJson,
    timestampOfJson?_integerJson]
  rfl

theorem historyOfJson?_array (rs : List Record) :
    historyOfJson? (.array (rs.map recordJson)) = some (rs.map Record.written) :=
  mapM_map_eq_pure fun r _ => recordOfJson?_recordJson r

theorem Entry.optional?_history (e : Entry) :
    Json.optional? e.members "history" [] historyOfJson? = some (e.history.map Record.written) := by
  have hfields : Json.named "history" e.fields = [] := rfl
  -- A history that is left out is empty, which is how it is read.
  by_cases hnil : e.history = []
  . have hnone : Json.named "history" e.members = [] := by
      unfold members
      rw [if_pos hnil, List.append_nil, hfields]
    rw [Json.optional?_of_absent hnone, hnil, List.map_nil]
  . have hsome : Json.named "history" e.members = [.array (e.history.map recordJson)] := by
      unfold members
      rw [if_neg hnil, Json.named_append, hfields]
      rfl
    rw [Json.optional?_of_named hsome, historyOfJson?_array]

theorem Entry.named_members (e : Entry) {name : String} (h : name ≠ "history") :
    Json.named name e.members = Json.named name e.fields := by
  unfold members
  rw [Json.named_append]
  split
  . apply List.append_nil
  . simp [Json.named, Ne.symm h]

theorem Entry.ofJson?_toJson (e : Entry) : ofJson? e.toJson = some e.written := by
  -- Each of the other fields is found once under its name.
  have hkind : Json.named "type" e.members = [e.kind.toJson] := e.named_members (by decide)
  have hname : Json.named "name" e.members = [textJson e.name] := e.named_members (by decide)
  have hdescription : Json.named "description" e.members = [textJson e.description] :=
    e.named_members (by decide)
  have hvalue : Json.named "value" e.members = [e.value.toJson] := e.named_members (by decide)
  have htimestamp : Json.named "timestamp" e.members = [integerJson e.timestamp.toInt] :=
    e.named_members (by decide)
  have hchanges : Json.named "changes_since_flush" e.members = [integerJson e.changes.toNat] :=
    e.named_members (by decide)
  rw [toJson_eq]
  simp only [ofJson?, ofMembers?, Json.members?_object, Option.bind_eq_bind, Option.bind_some,
    Json.required?_of_named hkind, Json.required?_of_named hname,
    Json.optional?_of_named hdescription, Json.required?_of_named hvalue,
    Json.required?_of_named htimestamp, Json.required?_of_named hchanges, e.optional?_history,
    Kind.ofJson?_toJson, textJson, Json.text?_string, Value.ofJson?_toJson,
    timestampOfJson?_integerJson, changesOfJson?_integerJson]
  rfl

end Snapshot

end Metering
