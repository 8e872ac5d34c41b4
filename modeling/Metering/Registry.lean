import Metering.Log
import Metering.Tracked
import Std.Data.ExtTreeMap

/-!
This module contains registries: the metrics of one process, by name and in the order of their
registration.

A registry holds at most one metric of a name. Its metrics are updated one by one and merged all
together or not at all, and a metric never leaves it.
-/

namespace Metering

@[ext]
structure Registry where
  map : Std.ExtTreeMap String Tracked
  order : List String

namespace Registry

def empty : Registry :=
  ⟨∅, []⟩

instance : Inhabited Registry := ⟨empty⟩

def names (r : Registry) : List String :=
  r.order

def size (r : Registry) : Nat :=
  r.map.size

def find? (r : Registry) (name : String) : Option Tracked :=
  r.map[name]?

def get? (r : Registry) (name : String) : Option Metric :=
  (r.find? name).map Tracked.current

def contains (r : Registry) (name : String) : Bool :=
  r.map.contains name

def entries (r : Registry) : List Tracked :=
  r.order.filterMap r.find?

/-!
## Single metrics
-/

/--
Add a metric at the end. Nothing is asked about its name.
-/
def insert (r : Registry) (t : Tracked) : Registry :=
  ⟨r.map.insert t.name t, r.order ++ [t.name]⟩

def put (r : Registry) (name : String) (t : Tracked) : Registry :=
  ⟨r.map.insert name t, r.order⟩

def ofEntries (ts : List Tracked) : Registry :=
  ts.foldl insert empty

@[simp]
theorem names_insert (r : Registry) (t : Tracked) : (r.insert t).names = r.names ++ [t.name] := rfl

@[simp]
theorem names_put (r : Registry) (name : String) (t : Tracked) : (r.put name t).names = r.names :=
  rfl

theorem find?_empty (name : String) : empty.find? name = none := by
  simp [find?, empty]

theorem find?_insert (r : Registry) (t : Tracked) (name : String) :
    (r.insert t).find? name = if t.name = name then some t else r.find? name := by
  simp [find?, insert, Std.ExtTreeMap.getElem?_insert]

theorem find?_put (r : Registry) (key name : String) (t : Tracked) :
    (r.put key t).find? name = if key = name then some t else r.find? name := by
  simp [find?, put, Std.ExtTreeMap.getElem?_insert]

theorem mem_map_iff {r : Registry} {name : String} :
    name ∈ r.map ↔ ∃ t, r.find? name = some t := by
  rw [Std.ExtTreeMap.mem_iff_isSome_getElem?, Option.isSome_iff_exists]
  rfl

theorem eq_of_find? {r s : Registry} (hnames : r.names = s.names)
    (hfind : ∀ name, r.find? name = s.find? name) : r = s := by
  ext1
  . apply Std.ExtTreeMap.ext_getElem? hfind
  . exact hnames

theorem put_eq_self {r : Registry} {name : String} {t : Tracked} (ht : r.find? name = some t) :
    r.put name t = r := by
  apply eq_of_find?
  . rfl
  . intro other
    rw [find?_put]
    split
    . next heq => rw [← heq, ht]
    . rfl

theorem contains_eq_isSome (r : Registry) (name : String) :
    r.contains name = (r.find? name).isSome := by
  rw [contains, find?, Std.ExtTreeMap.isSome_getElem?_eq_contains]

def register? (r : Registry) (m : Metric) : Option Registry :=
  if r.contains m.name then none else some (r.insert (.ofMetric m))

def registerLine (r : Registry) (m : Metric) : Line :=
  if r.contains m.name then
    ⟨.warn, "The metric [" ++ m.name ++ "] already exists."⟩
  else
    ⟨.debug, "Registered " ++ m.kind.name ++ " metric [" ++ m.name ++ "]"⟩

/--
Update the metric of a name in its place.
-/
def perform (now : Int64) (r : Registry) (name : String) (u : Update) :
    Registry × Except MetricError Unit :=
  match r.find? name with
  | none => (r, .error (.notRegistered name))
  | some t =>
    let (t, result) := t.perform now u
    (r.put name t, result)

def update (now : Int64) (r : Registry) (name : String) (u : Update) :
    Except MetricError Registry :=
  settled (r.perform now name u)

theorem register?_eq_some_iff {r r' : Registry} {m : Metric} :
    r.register? m = some r' ↔ r.find? m.name = none ∧ r.insert (.ofMetric m) = r' := by
  unfold register?
  rw [contains_eq_isSome]
  cases r.find? m.name <;> simp

/--
An update that is refused leaves the whole registry as it is.
-/
theorem spares_perform (now : Int64) (r : Registry) (name : String) (u : Update) :
    Spares r (r.perform now name u) := by
  unfold perform
  split
  . apply spares_error
  . next t ht =>
    intro e he
    have hsame : (t.perform now u).1 = t := t.spares_perform now u e he
    dsimp only
    rw [hsame, put_eq_self ht]

theorem perform_eq (now : Int64) (r : Registry) (name : String) (u : Update) :
    r.perform now name u
      = match r.update now name u with
        | .ok r' => (r', .ok ())
        | .error e => (r, .error e) := by
  cases h : r.update now name u with
  | ok r' => exact settled_eq_ok_iff.1 h
  | error e => exact (r.spares_perform now name u).settled_eq_error_iff.1 h

theorem fst_perform_of_ok {now : Int64} {r r' : Registry} {name : String} {u : Update}
    (h : r.update now name u = .ok r') : (r.perform now name u).1 = r' := by
  rw [perform_eq, h]

theorem fst_perform_of_error {now : Int64} {r : Registry} {name : String} {u : Update}
    {e : MetricError} (h : r.update now name u = .error e) : (r.perform now name u).1 = r := by
  rw [perform_eq, h]

theorem update_eq (now : Int64) (r : Registry) (name : String) (u : Update) :
    r.update now name u
      = match r.find? name with
        | none => .error (.notRegistered name)
        | some t => (t.apply now u).map (r.put name) := by
  unfold update perform
  split
  . rfl
  . next t _ =>
    unfold Tracked.apply settled
    dsimp only
    cases (t.perform now u).2 <;> rfl

theorem update_eq_ok_iff {now : Int64} {r r' : Registry} {name : String} {u : Update} :
    r.update now name u = .ok r' ↔
      ∃ t t', r.find? name = some t ∧ t.apply now u = .ok t' ∧ r.put name t' = r' := by
  rw [update_eq]
  cases r.find? name with
  | none => simp
  | some t => simp [map_eq_ok_iff]

/-!
## Merging
-/

/--
The first metric that has the name of a registered one but another kind.
-/
def conflict? (r : Registry) (incoming : List Tracked) : Option MetricError :=
  incoming.findSome? fun t =>
    match r.find? t.name with
    | none => none
    | some s => if s.kind = t.kind then none else some (.typeMismatch t.name s.kind t.kind)

def mergeOne (r : Registry) (t : Tracked) : Except MetricError Registry :=
  match r.find? t.name with
  | none => .ok (r.insert t)
  | some s => (s.merge t).map (r.put t.name)

theorem mergeOne_eq_ok_iff {r r' : Registry} {t : Tracked} :
    r.mergeOne t = .ok r' ↔
      r.find? t.name = none ∧ r.insert t = r'
        ∨ ∃ s s', r.find? t.name = some s ∧ s.merge t = .ok s' ∧ r.put t.name s' = r' := by
  unfold mergeOne
  cases r.find? t.name with
  | none => simp
  | some s => simp [map_eq_ok_iff]

/--
Merge metrics one after the other. If one of them is refused, the registry stays as it is by then.
-/
def mergeAll (r : Registry) : List Tracked → Registry × Except MetricError Unit
  | [] => (r, .ok ())
  | t :: ts =>
    match r.mergeOne t with
    | .error e => (r, .error e)
    | .ok r => r.mergeAll ts

def mergeEntries (r : Registry) (incoming : List Tracked) : Registry × Except MetricError Nat :=
  match r.conflict? incoming with
  | some e => (r, .error e)
  | none =>
    let (r, result) := r.mergeAll incoming
    (r, result.map fun _ => incoming.length)

def merge (r other : Registry) : Registry × Except MetricError Nat :=
  r.mergeEntries other.entries

def takeOut (map : Std.ExtTreeMap String Tracked) : List String → List Tracked
  | [] => []
  | name :: names =>
    match map[name]? with
    | none => takeOut map names
    | some t => t :: takeOut (map.erase name) names

def absorb (r other : Registry) : (Registry × Except MetricError Nat) × Registry :=
  (r.mergeEntries (takeOut other.map other.order), empty)

def mergeLine (t : Tracked) : Line :=
  ⟨.trace, "Metric name: " ++ t.name ++ ", value: " ++ t.current.value.display
    ++ ", description: " ++ t.current.description
    ++ ", time: " ++ Integer.text t.current.timestamp
    ++ ", changes since last flush: " ++ Decimal.text t.changes.toNat⟩

/--
The log lines of a merge. There are none if the metrics do not fit.
-/
def mergeLines (r : Registry) (incoming : List Tracked) : List Line :=
  if (r.conflict? incoming).isSome then [] else incoming.map mergeLine

/-!
## Flushing
-/

def totalChanges (r : Registry) : Tally :=
  Tally.sum (r.map.toList.map fun (_, t) => t.changes)

def flushReady (r : Registry) (threshold : Tally) : Bool :=
  threshold.toNat < r.totalChanges.toNat

def changed (r : Registry) : List Tracked :=
  r.entries.filter fun t => 0 < t.changes.toNat

def pairs (r : Registry) : List (String × String) :=
  r.entries.flatMap Tracked.pairs

def reset (r : Registry) : Registry :=
  ⟨r.map.map fun _ t => t.reset, r.order⟩

def drain (r : Registry) : List (String × String) × Registry :=
  (r.pairs, r.reset)

@[simp]
theorem names_reset (r : Registry) : r.reset.names = r.names := rfl

theorem find?_reset (r : Registry) (name : String) :
    r.reset.find? name = (r.find? name).map Tracked.reset := by
  simp [find?, reset]

def agrees (r s : Registry) : Bool :=
  r.entries.length = s.entries.length
    && (r.entries.zip s.entries).all fun (t, u) => t.agrees u

end Registry

end Metering
