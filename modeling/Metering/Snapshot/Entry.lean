import Metering.Tracked

/-!
This module contains the entries of snapshots: what a snapshot says about one metric. An entry may
say anything that its format allows, so it is checked before it becomes a metric.
-/

namespace Metering.Snapshot

structure Entry where
  kind : Kind
  name : String
  description : String
  value : Value
  timestamp : Int64
  changes : Tally
  history : List Record
  deriving DecidableEq

inductive Fault where
  | repeatedName (name : String)
  | historyInPlace (name : String) (kind : Kind)
  | historyWithoutChange (name : String)
  | historyValue (name : String) (kind : Kind) (value : Value)
  | metric (e : MetricError)
  deriving DecidableEq

namespace Fault

def message : Fault → String
  | repeatedName name => "metric " ++ MetricError.quoteName name ++ " appears more than once"
  | historyInPlace name kind =>
    "metric " ++ MetricError.quoteName name ++ " of type " ++ kind.name ++ " cannot carry history"
  | historyWithoutChange name =>
    "metric " ++ MetricError.quoteName name ++ " carries history without any change"
  | historyValue name kind value =>
    "metric " ++ MetricError.quoteName name ++ " of type " ++ kind.name ++ " has history value "
      ++ value.describe
  | metric e => e.message

end Fault

namespace Entry

def ofTracked (t : Tracked) : Entry :=
  ⟨t.kind, t.name, t.current.description, t.current.value, t.current.timestamp, t.changes,
    t.history⟩

def checkRecord (name : String) (kind : Kind) (r : Record) : Except Fault Record :=
  match kind.coerce? r.value with
  | some v => .ok ⟨v, r.timestamp⟩
  | none => .error (.historyValue name kind r.value)

/--
Refuse a history that is out of place: that of a metric without history, and one without changes.
-/
def checkHistory (e : Entry) : Except Fault Unit :=
  if e.history = [] then .ok ()
  else if ¬ e.kind.keepsHistory then .error (.historyInPlace e.name e.kind)
  else if e.changes.toNat = 0 then .error (.historyWithoutChange e.name)
  else .ok ()

def toTracked (e : Entry) : Except Fault Tracked := do
  e.checkHistory
  let history ← e.history.mapM (checkRecord e.name e.kind)
  match Metric.ofParts e.kind e.name e.description e.value e.timestamp with
  | .error err => .error (.metric err)
  | .ok m => .ok ⟨m, e.changes, history⟩

theorem checkHistory_eq_ok_iff {e : Entry} :
    e.checkHistory = .ok () ↔
      e.history = [] ∨ e.kind.keepsHistory = true ∧ e.changes.toNat ≠ 0 := by
  unfold checkHistory
  split
  . next hnil => simp [hnil]
  . next hne =>
    split
    . next hkeeps => simp [hne, hkeeps]
    . split
      . next hzero => simp [hne, hzero]
      . next hkeeps hpos => simpa [hne, hpos] using hkeeps

theorem toTracked_eq_ok_iff {e : Entry} {t : Tracked} :
    e.toTracked = .ok t ↔
      e.checkHistory = .ok ()
        ∧ e.history.mapM (checkRecord e.name e.kind) = .ok t.history
        ∧ Metric.ofParts e.kind e.name e.description e.value e.timestamp = .ok t.current
        ∧ e.changes = t.changes := by
  unfold toTracked
  obtain ⟨current, changes, history⟩ := t
  cases e.checkHistory with
  | error f => simp [bind, Except.bind]
  | ok _ =>
    cases e.history.mapM (checkRecord e.name e.kind) with
    | error f => simp [bind, Except.bind]
    | ok history =>
      cases Metric.ofParts e.kind e.name e.description e.value e.timestamp with
      | error err => simp [bind, Except.bind]
      | ok m =>
        simp only [bind, Except.bind, Except.ok.injEq, true_and, Tracked.mk.injEq]
        exact ⟨fun ⟨hm, hc, hh⟩ => ⟨hh, hm, hc⟩, fun ⟨hh, hm, hc⟩ => ⟨hm, hc, hh⟩⟩

theorem same_of_toTracked {e : Entry} {t : Tracked} (h : e.toTracked = .ok t) :
    t.name = e.name ∧ t.kind = e.kind := by
  have hparts := (toTracked_eq_ok_iff.1 h).2.2.1
  rw [Metric.ofParts_eq] at hparts
  split at hparts
  . next r hr =>
    simp only [Except.ok.injEq] at hparts
    simp only [Tracked.name, Tracked.kind, Metric.kind, ← hparts]
    exact ⟨trivial, Reading.kind_of_ofValue? hr⟩
  . cases hparts

end Entry

/--
The metrics that entries describe, checked in order. A repetition of a name is the first fault of an
entry.
-/
def checkEntries (seen : List String) : List Entry → Except Fault (List Tracked)
  | [] => .ok []
  | e :: es =>
    if e.name ∈ seen then
      .error (.repeatedName e.name)
    else
      match e.toTracked with
      | .error f => .error f
      | .ok t => (checkEntries (e.name :: seen) es).map (t :: ·)

theorem checkEntries_cons_eq_ok_iff {seen : List String} {e : Entry} {es : List Entry}
    {ts : List Tracked} :
    checkEntries seen (e :: es) = .ok ts ↔
      e.name ∉ seen ∧ ∃ t us, e.toTracked = .ok t ∧ checkEntries (e.name :: seen) es = .ok us
        ∧ t :: us = ts := by
  rw [checkEntries]
  split
  . next hold => simp [hold]
  . next hnew =>
    cases e.toTracked with
    | error f => simp
    | ok t => simp [hnew, map_eq_ok_iff]

theorem changes_of_checkEntries {seen : List String} {es : List Entry} {ts : List Tracked}
    (h : checkEntries seen es = .ok ts) : ts.map Tracked.changes = es.map Entry.changes := by
  induction es generalizing seen ts with
  | nil =>
    cases h
    rfl
  | cons e es ih =>
    obtain ⟨-, t, us, ht, hus, rfl⟩ := checkEntries_cons_eq_ok_iff.1 h
    rw [List.map_cons, List.map_cons, ih hus, (Entry.toTracked_eq_ok_iff.1 ht).2.2.2]

theorem nodup_names_of_checkEntries {seen : List String} {es : List Entry} {ts : List Tracked}
    (h : checkEntries seen es = .ok ts) :
    (ts.map Tracked.name).Nodup ∧ ∀ n ∈ ts.map Tracked.name, n ∉ seen := by
  induction es generalizing seen ts with
  | nil =>
    cases h
    simp
  | cons e es ih =>
    obtain ⟨hseen, t, us, ht, hus, rfl⟩ := checkEntries_cons_eq_ok_iff.1 h
    obtain ⟨hnodup, hnew⟩ := ih hus
    have hname := (Entry.same_of_toTracked ht).1
    rw [List.map_cons, hname]
    constructor
    . rw [List.nodup_cons]
      refine ⟨?_, hnodup⟩
      intro hmem
      exact hnew e.name hmem List.mem_cons_self
    . intro n hn
      rcases List.mem_cons.1 hn with rfl | hn
      . exact hseen
      . intro hmem
        exact hnew n hn (List.mem_cons_of_mem _ hmem)

end Metering.Snapshot
