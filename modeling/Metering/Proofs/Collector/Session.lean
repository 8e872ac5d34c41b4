import Metering.Collector.Thread
import Metering.Proofs.Collector.Basic

/-!
This module contains what the collector does in the course of many commands, between which other
threads use its registry, what all of that keeps, and that the service does the same in its own
steps.
-/

namespace Metering

/--
What another thread does with the registry.
-/
inductive Access where
  | register (m : Metric)
  | update (now : Int64) (name : String) (u : Update)

namespace Access

def event : Access → Event
  | register m => .register m
  | update now name u => .update now name u

end Access

def Event.access? : Event → Option Access
  | register m => some (.register m)
  | update now name u => some (.update now name u)
  | _ => none

namespace Registry

def access (r : Registry) : Access → Registry
  | .register m => (r.register? m).getD r
  | .update now name u => (r.perform now name u).1

def accessAll (r : Registry) (as : List Access) : Registry :=
  as.foldl access r

theorem Sound.accessAll {r : Registry} (h : r.Sound) (as : List Access) :
    (r.accessAll as).Sound := by
  induction as generalizing r with
  | nil => exact h
  | cons a as ih =>
    apply ih
    cases a with
    | register m => exact (World.keeps_register m r h).1
    | update now name u => exact (World.keeps_update now name u r h).1

end Registry

/--
One thing that happens to a collector. While it carries out a snapshot, other threads may use the
registry after the metrics were merged, and again after the threshold was found to be exceeded.
-/
inductive Deed where
  | access (a : Access)
  | command (command : Command) (merged overdue : List Access)

namespace Collector

def accessAll (c : Collector) (as : List Access) : Collector :=
  { c with registry := c.registry.accessAll as }

def ingestAmid (c : Collector) (payload : Bytes) (merged overdue : List Access) :
    Except IngestError IngestReport × Collector × List Shipment × List Line :=
  match c.accept payload with
  | (.error e, c, lines) => (.error e, c.accessAll (merged ++ overdue), [], lines)
  | (.ok n, c, lines) =>
    let c := c.accessAll merged
    if c.overdue then
      let (_, c, shipments, more) := (c.accessAll overdue).flush
      (.ok ⟨n, true⟩, c, shipments, lines ++ more)
    else
      (.ok ⟨n, false⟩, c.accessAll overdue, [], lines)

def handleAmid (c : Collector) (command : Command) (merged overdue : List Access) : Turn :=
  match command with
  | .ingest payload =>
    let (result, c, shipments, lines) := c.ingestAmid payload merged overdue
    ⟨c, .ingested result, shipments, lines⟩
  | .submit payload =>
    let (result, c, shipments, lines) := c.ingestAmid payload merged overdue
    ⟨c, .none, shipments, lines ++ submitLines payload result⟩
  | command =>
    let turn := c.handle command
    { turn with collector := turn.collector.accessAll (merged ++ overdue) }

def proceed (c : Collector) : Deed → Turn
  | .access a => ⟨c.accessAll [a], .none, [], []⟩
  | .command command merged overdue => c.handleAmid command merged overdue

def turns (c : Collector) : List Deed → List Turn
  | [] => []
  | d :: ds => c.proceed d :: turns (c.proceed d).collector ds

def after (c : Collector) (ds : List Deed) : Collector :=
  ds.foldl (fun c d => (c.proceed d).collector) c

def sent (c : Collector) (ds : List Deed) : List Shipment :=
  (c.turns ds).flatMap Turn.shipments

theorem ingestAmid_nil (c : Collector) (payload : Bytes) :
    c.ingestAmid payload [] [] = c.ingest payload := by
  unfold ingestAmid ingest
  rfl

/--
Undisturbed commands are those of the collector.
-/
theorem handleAmid_nil (c : Collector) (command : Command) :
    c.handleAmid command [] [] = c.handle command := by
  cases command with
  | ingest payload =>
    simp only [handleAmid, handle, ingestAmid_nil]
  | submit payload =>
    simp only [handleAmid, handle, ingestAmid_nil]
  | flush => rfl
  | systemState state updated => rfl
  | get name => rfl

/-!
## What commands keep
-/

/--
Whether a property of collectors is kept by all parts of commands, and by other threads.
-/
structure Lasting (P : Collector → Prop) : Prop where
  accept : ∀ (c : Collector) (payload : Bytes), P c → P (c.accept payload).2.1
  access : ∀ (c : Collector) (as : List Access), P c → P (c.accessAll as)
  reset : ∀ c : Collector, P c → P { c with registry := c.registry.reset }
  ship : ∀ (c : Collector) (cause : Cause) (b : Batch), P c → P (c.ship cause b).1

namespace Lasting

variable {P : Collector → Prop} {c : Collector}

theorem flush (hP : Lasting P) (h : P c) : P c.flush.2.1 :=
  hP.ship _ _ _ (hP.reset c h)

theorem finalFlush (hP : Lasting P) (h : P c) : P c.finalFlush.collector := by
  unfold Collector.finalFlush
  split
  . apply hP.flush h
  . exact h

theorem ingestAmid (hP : Lasting P) (h : P c) (payload : Bytes) (merged overdue : List Access) :
    P (c.ingestAmid payload merged overdue).2.1 := by
  have h := hP.accept c payload h
  unfold Collector.ingestAmid
  cases haccept : c.accept payload with
  | mk result rest =>
    rw [haccept] at h
    cases result with
    | error e => exact hP.access rest.1 _ h
    | ok n =>
      have hmerged := hP.access rest.1 merged h
      dsimp only
      split
      . exact hP.flush (hP.access _ overdue hmerged)
      . exact hP.access _ overdue hmerged

theorem handleAmid (hP : Lasting P) (h : P c) (command : Command) (merged overdue : List Access) :
    P (c.handleAmid command merged overdue).collector := by
  cases command with
  | ingest payload => apply hP.ingestAmid h payload merged overdue
  | submit payload => apply hP.ingestAmid h payload merged overdue
  | flush => apply hP.access _ _ (hP.flush h)
  | systemState state updated => apply hP.access _ _ (hP.ship c _ _ h)
  | get name => apply hP.access _ _ h

theorem handle (hP : Lasting P) (h : P c) (command : Command) : P (c.handle command).collector := by
  rw [← handleAmid_nil]
  apply hP.handleAmid h

theorem proceed (hP : Lasting P) (h : P c) (deed : Deed) : P (c.proceed deed).collector := by
  cases deed with
  | access a => apply hP.access c [a] h
  | command command merged overdue => apply hP.handleAmid h command merged overdue

theorem after (hP : Lasting P) (h : P c) (ds : List Deed) : P (c.after ds) := by
  induction ds generalizing c with
  | nil => exact h
  | cons d ds ih => exact ih (hP.proceed h d)

end Lasting

theorem lasting_sound : Lasting fun c => c.registry.Sound where
  accept c payload h := by
    cases c.accept_cases h payload with
    | inl hrefused =>
      obtain ⟨e, lines, haccept⟩ := hrefused
      rw [haccept]
      exact h
    | inr haccepted =>
      obtain ⟨ts, n, r, lines, -, hr, -, haccept⟩ := haccepted
      rw [haccept]
      exact hr
  access c as h := h.accessAll as
  reset c h := h.reset
  ship c cause b h := by
    rw [registry_ship]
    exact h

theorem lasting_sinks (n : Nat) : Lasting fun c => c.sinks = n where
  accept c payload h := (c.sinks_accept payload).trans h
  access _ _ h := h
  reset _ h := h
  ship c cause b h := (c.sinks_ship cause b).trans h

theorem lasting_outbox {P : Outbox → Prop} (htidy : ∀ o, P o → P o.tidy)
    (hdispatch : ∀ o b, P o → P (o.dispatch b)) : Lasting fun c => P c.outbox where
  accept c payload h := by
    rw [outbox_accept]
    exact h
  access _ _ h := h
  reset _ h := h
  ship c cause b h := by
    unfold Collector.ship
    split
    . apply htidy _ h
    . apply hdispatch _ _ (htidy _ h)

end Collector

/-!
## The same steps of the service
-/

namespace Thread

variable {s : Thread}

theorem step?_access (hopen : ¬s.Closed) (a : Access) :
    s.step? a.event = some (s.withRegistry (s.collector.registry.access a)) := by
  cases a with
  | register m => exact if_neg hopen
  | update now name u => exact if_neg hopen

theorem filterMap_access? (as : List Access) :
    (as.map Access.event).filterMap Event.access? = as := by
  rw [List.filterMap_map]
  induction as with
  | nil => rfl
  | cons a as ih => cases a <;> simp [Access.event, Event.access?, ih]

variable (c : Collector) (qs : List Request) (connected : Bool) (sent : List Shipment)

theorem run?_accesses (point : Point) (hopen : point ≠ .closed ∧ point ≠ .returned)
    (as : List Access) :
    run? ⟨c, point, qs, connected, sent⟩ (as.map Access.event)
      = some ⟨c.accessAll as, point, qs, connected, sent⟩ := by
  induction as generalizing c with
  | nil => rfl
  | cons a as ih =>
    rw [List.map_cons, run?_cons_eq_some_iff]
    exact ⟨_, step?_access (not_or.2 hopen) a, ih (c.accessAll [a])⟩

theorem run?_merged (as : List Access) (es : List Event) :
    run? ⟨c, .merged, qs, connected, sent⟩ (as.map Access.event ++ .work :: es)
      = run? ⟨c.accessAll as, if (c.accessAll as).overdue then .overdue else .serving, qs, connected,
        sent⟩ es := by
  rw [run?_append, run?_accesses c qs connected sent .merged (by decide) as, Option.bind_some]
  rfl

theorem exists_run_accept (payload : Bytes) (merged overdue : List Access) :
    ∃ es, run? (perform ⟨c, .serving, qs, connected, sent⟩ (.ingest payload)) es
        = some ⟨(c.ingestAmid payload merged overdue).2.1, .serving, qs, connected,
          sent ++ (c.ingestAmid payload merged overdue).2.2.1⟩
      ∧ es.filterMap Event.access? = merged ++ overdue := by
  unfold Collector.ingestAmid
  simp only [perform]
  cases c.accept payload with
  | mk result rest =>
    cases result with
    | error e =>
      refine ⟨(merged ++ overdue).map Access.event, ?_, filterMap_access? _⟩
      rw [List.append_nil]
      exact run?_accesses rest.1 qs connected sent .serving (by decide) _
    | ok n =>
      dsimp only
      cases hoverdue : (rest.1.accessAll merged).overdue with
      | false =>
        refine ⟨merged.map Access.event ++ .work :: overdue.map Access.event, ?_, ?_⟩
        . simp only [run?_merged, hoverdue, Bool.false_eq_true, if_false, List.append_nil]
          exact run?_accesses _ qs connected sent .serving (by decide) _
        . rw [List.filterMap_append, filterMap_access?]
          exact congrArg _ (filterMap_access? overdue)
      | true =>
        refine ⟨merged.map Access.event ++ .work :: (overdue.map Access.event ++ [.work]), ?_, ?_⟩
        . rw [run?_merged, hoverdue, if_pos rfl, run?_append,
            run?_accesses _ qs connected sent .overdue (by decide), Option.bind_some]
          rfl
        . have hlast : (overdue.map Access.event ++ [Event.work]).filterMap Event.access? = overdue := by
            rw [List.filterMap_append, filterMap_access?]
            exact List.append_nil overdue
          rw [List.filterMap_append, filterMap_access?]
          exact congrArg _ hlast

/--
What a command does amid the uses of other threads is what the service does in its own steps.
-/
theorem exists_run_handleAmid (command : Command) (abandoned : Bool)
    (merged overdue : List Access) :
    ∃ es, run? ⟨c, .serving, .command command abandoned :: qs, connected, sent⟩ es
        = some (after ⟨c, .serving, qs, connected, sent⟩ (c.handleAmid command merged overdue))
      ∧ es.filterMap Event.access? = merged ++ overdue := by
  have hrest (command : Command) (hcommand : perform ⟨c, .serving, qs, connected, sent⟩ command
      = after ⟨c, .serving, qs, connected, sent⟩ (c.handle command)) :
      run? ⟨c, .serving, .command command abandoned :: qs, connected, sent⟩
          (.work :: (merged ++ overdue).map Access.event)
        = some ⟨(c.handle command).collector.accessAll (merged ++ overdue), .serving, qs, connected,
          sent ++ (c.handle command).shipments⟩ := by
    have hs : take? ⟨c, .serving, .command command abandoned :: qs, connected, sent⟩
        = some (perform ⟨c, .serving, qs, connected, sent⟩ command) := rfl
    rw [run?, step?, work?, hs, hcommand, Option.bind_some]
    exact run?_accesses _ qs connected _ .serving (by decide) _
  cases command with
  | ingest payload =>
    obtain ⟨es, hes, haccesses⟩ := exists_run_accept c qs connected sent payload merged overdue
    exact ⟨.work :: es, hes, haccesses⟩
  | submit payload =>
    obtain ⟨es, hes, haccesses⟩ := exists_run_accept c qs connected sent payload merged overdue
    exact ⟨.work :: es, hes, haccesses⟩
  | flush => exact ⟨_, hrest _ rfl, filterMap_access? _⟩
  | systemState state updated => exact ⟨_, hrest _ rfl, filterMap_access? _⟩
  | get name => exact ⟨_, hrest _ rfl, filterMap_access? _⟩

end Thread

end Metering
