import Metering.Proofs.Collector.Delivery
import Metering.Proofs.Collector.Invisible
import Metering.Proofs.Collector.Stopped
import Metering.Proofs.Collector.Thread

/-!
This module contains what the sinks have been handed when the service has come to its end, which it
always can. What is known of the batches that were sent holds for each of the sinks, apart from the
order in which the batches reach it.
-/

namespace Metering

theorem Shipment.IsReport.past_eq_nil {x : Shipment} (h : x.IsReport) (name : String) :
    x.batch.past name = [] := by
  obtain ⟨state, updated, rfl⟩ := h
  have hne : Collector.stateKey ≠ Collector.timeKey := by decide
  unfold Batch.past
  by_cases hstate : Collector.stateKey = name
  . have htime : Collector.timeKey ≠ name := fun htime => hne (hstate.trans htime.symm)
    simp [hstate, htime]
  . by_cases htime : Collector.timeKey = name <;> simp [hstate, htime]

namespace Thread

/-!
## The way to the return of the service
-/

variable {s : Thread} {j : Journal}

theorem exists_step_left (h : s.Noted j) (hbusy : ¬s.collector.outbox.idle) :
    ∃ e o, s.step? e = some (s.withOutbox o) ∧ o.left < s.collector.outbox.left := by
  obtain ⟨i, p, hnext⟩ := h.tracks.exists_next hbusy .received
  cases hnext with
  | inl hhand =>
    obtain ⟨⟨o, lines⟩, ho⟩ := Option.isSome_iff_exists.1 hhand
    refine ⟨.hand i p, o, ?_, Outbox.left_of_hand? ho⟩
    rw [step?, ho]
    rfl
  | inr hrelease =>
    obtain ⟨⟨o, lines⟩, ho⟩ := Option.isSome_iff_exists.1 hrelease
    refine ⟨.release i p .received, o, ?_, Outbox.left_of_release? ho⟩
    rw [step?, ho]
    rfl

/--
Deliveries can come to their end while the service waits.
-/
theorem exists_run_idle (h : s.Noted j) :
    ∃ es t, s.run? es = some t ∧ t.collector.outbox.idle ∧ t.point = s.point
      ∧ t.shipments = s.shipments := by
  -- By induction on what is left to be delivered.
  induction hleft : s.collector.outbox.left using Nat.strongRecOn generalizing s j with
  | ind n ih =>
    subst hleft
    by_cases hidle : s.collector.outbox.idle
    . exact ⟨[], s, rfl, hidle, rfl, rfl⟩
    . obtain ⟨e, o, hs, hlt⟩ := exists_step_left h hidle
      obtain ⟨es, t, hrun, ht⟩ := ih _ hlt (h.step hs) rfl
      exact ⟨e :: es, t, run?_cons_eq_some_iff.2 ⟨_, hs, hrun⟩, ht⟩

theorem exists_run_of_closed (h : s.Noted j) (hclosed : s.Closed) :
    ∃ es t, s.run? es = some t ∧ t.point = .returned ∧ t.shipments = s.shipments := by
  cases hclosed with
  | inr hreturned => exact ⟨[], s, rfl, hreturned, rfl⟩
  | inl hclosed =>
    obtain ⟨es, t, hrun, hidle, hpoint, hshipments⟩ := exists_run_idle h
    rw [hclosed] at hpoint
    have hwork : t.step? .work = some { t with point := .returned } := by
      simp only [step?, work?, hpoint, hidle, if_true]
    refine ⟨es ++ [.work], { t with point := .returned }, ?_, rfl, hshipments⟩
    rw [run?_append_eq_some_iff]
    exact ⟨t, hrun, run?_cons_eq_some_iff.2 ⟨_, hwork, rfl⟩⟩

/--
Wherever it has got to, a service that was told to stop, or that nobody can send anything to, can
come to its return.
-/
theorem exists_run_returned (h : s.Noted j) (hstops : s.connected = false ∨ .shutdown ∈ s.queue) :
    ∃ es t, s.run? es = some t ∧ t.point = .returned := by
  obtain ⟨t, ⟨n, ht⟩, hclosed⟩ :=
    closes s.collector s.queue s.connected s.shipments s.point hstops
  obtain ⟨es, u, hu, hreturned, -⟩ := exists_run_of_closed (h.run ht) hclosed
  exact ⟨_, u, run?_append_eq_some_iff.2 ⟨t, ht, hu⟩, hreturned⟩

/-!
## What each sink was handed
-/

/--
A service in front of sinks that are always ready.
-/
def launch (threshold : Tally) (registry : Registry) (sinks : List Sink) : Thread :=
  start ⟨threshold, registry, .ofStations (sinks.map (.ofSink · .wide))⟩

variable {threshold : Tally} {registry : Registry} {sinks : List Sink} {es : List Event}

theorem handed_of_stopped (hrun : (launch threshold registry sinks).run? es = some s)
    (hstopped : s.Stopped) :
    ∀ u ∈ s.collector.outbox.stations,
      u.handed.Perm s.batches ∧ u.released = s.batches.length :=
  (((noted_start threshold registry sinks).run hrun).tracks.ended_of_idle hstopped.2).2

theorem Accounts.past_batches {past : String → List String} (h : s.Accounts past) (name : String) :
    s.batches.flatMap (·.past name) = s.flushed name := by
  unfold batches flushed
  rw [List.flatMap_map]
  apply List.flatMap_congr
  intro x hx
  split
  . rfl
  . next hcause => apply (h.reports x hx hcause).past_eq_nil

theorem accounts_launch (threshold : Tally) (hregistry : registry.Reachable) (hsinks : sinks ≠ []) :
    (launch threshold registry sinks).Accounts registry.past := by
  apply accounts_start hregistry.sound
  unfold Collector.sinks Outbox.ofStations
  rw [List.length_map]
  exact mt List.length_eq_zero_iff.1 hsinks

/--
When the service has stopped, each sink was handed the same batches. Their former values of a name
are what the registry remembered at the start and what was observed from then on, in that order if
the batches are put into the order in which they were sent.
-/
theorem observations_received (hregistry : registry.Reachable) (hsinks : sinks ≠ [])
    (hrun : (launch threshold registry sinks).run? es = some s) (hstopped : s.Stopped)
    (name : String) :
    s.batches.flatMap (·.past name)
        = registry.past name ++ (launch threshold registry sinks).observations name es
      ∧ ∀ u ∈ s.collector.outbox.stations, u.handed.Perm s.batches
        ∧ (u.handed.flatMap (·.past name)).Perm
          (registry.past name ++ (launch threshold registry sinks).observations name es) := by
  have haccounts := (accounts_launch threshold hregistry hsinks).run hrun
  have hpast := (haccounts.past_batches name).trans (haccounts.flushed_eq hstopped.1 name)
  refine ⟨hpast, ?_⟩
  intro u hu
  have hhanded := (handed_of_stopped hrun hstopped u hu).1
  refine ⟨hhanded, ?_⟩
  rw [← hpast]
  apply hhanded.flatMap_right

theorem mem_of_getElem?_of_lt {α : Type} {before after : List α} {x y : α} {l : Nat}
    (hl : before.length < l) (hy : (before ++ x :: after)[l]? = some y) : y ∈ after := by
  obtain ⟨n, rfl⟩ := Nat.exists_eq_add_of_lt hl
  rw [List.getElem?_append_right (by omega), Nat.add_assoc, Nat.add_sub_cancel_left,
    List.getElem?_cons_succ] at hy
  exact List.mem_of_getElem? hy

/--
When the service has stopped, each sink was handed a flush after each change, once. The last one has
the value that the metric has in the end as the last value of its name. If no change is left that
was not flushed when the service leaves, the sinks were handed nothing but what was sent by then.
-/
theorem changes_received (hregistry : registry.Reachable) (hzero : registry.totalChanges = 0)
    (hsinks : sinks ≠ []) (hrun : (launch threshold registry sinks).run? es = some s)
    (hstopped : s.Stopped)
    (hpos : ∀ t e, (launch threshold registry sinks).Meets es t e →
      ∀ u ∈ t.merged e, 0 < u.changes.toNat) :
    (∀ t e name, (launch threshold registry sinks).Meets es t e → t.Changes name e →
        ∃ k x m, t.shipments.length ≤ k ∧ s.shipments[k]? = some x ∧ x.cause = .flush
          ∧ (∀ l y, k < l → s.shipments[l]? = some y → y.cause ≠ .flush)
          ∧ s.collector.registry.get? name = some m
          ∧ (x.batch.filter (·.1 = name)).getLast? = some (name, m.value.display)
          ∧ ∀ p < sinks.length,
            ((launch threshold registry sinks).journal .empty es).log.count ⟨k, p, .handed⟩ = 1)
      ∧ ∀ fs gs t, es = fs ++ gs → (launch threshold registry sinks).run? fs = some t →
        t.point = .leaving →
        (∀ u e name, (launch threshold registry sinks).Meets es u e → u.Changes name e →
          ¬u.Unflushed t) →
        ∀ u ∈ s.collector.outbox.stations, u.handed.Perm t.batches := by
  have hstart := accounts_launch threshold hregistry hsinks
  have hnoted := (noted_start threshold registry sinks).run hrun
  have hlength : s.collector.outbox.stations.length = sinks.length :=
    (sinks_of_run hrun).trans (List.length_map _)
  constructor
  . intro t e name hmeets hchanges
    obtain ⟨sent, x, after, m, hshipments, hx, hafter, hm, hlast⟩ :=
      (covered_of_changes hstart hpos hrun hmeets hchanges).exists_flush (hstart.run hrun)
        hstopped.1
    have hk : s.shipments[(t.shipments ++ sent).length]? = some x := by
      rw [hshipments, List.getElem?_append_right (Nat.le_refl _), Nat.sub_self]
      rfl
    refine ⟨(t.shipments ++ sent).length, x, m, ?_, hk, hx, ?_, hm, hlast, ?_⟩
    . rw [List.length_append]
      apply Nat.le_add_right
    . intro l y hl hy
      rw [hshipments] at hy
      apply hafter y (mem_of_getElem?_of_lt hl hy)
    . intro p hp
      have hlt : (t.shipments ++ sent).length < s.batches.length := by
        rw [batches, List.length_map]
        exact (List.getElem?_eq_some_iff.1 hk).1
      rw [← hlength] at hp
      exact ((hnoted.tracks.ended_of_idle hstopped.2).1 _ hlt p hp).1
  . rintro fs gs t rfl ht hleaving hflushed u hu
    have hsame := shipments_of_unchanged hstart hzero hrun ht hleaving hflushed
    rw [batches, ← hsame]
    exact (handed_of_stopped hrun hstopped u hu).1

/-!
## Two services
-/

theorem exists_run_proceed (c : Collector) (sent : List Shipment) (d : Deed) :
    ∃ es, run? ⟨c, .serving, [], true, sent⟩ es
      = some ⟨(c.proceed d).collector, .serving, [], true, sent ++ (c.proceed d).shipments⟩ := by
  cases d with
  | access a =>
    refine ⟨[a].map Access.event, ?_⟩
    rw [run?_accesses c [] true sent .serving (by decide), Collector.proceed, List.append_nil]
  | command command merged overdue =>
    obtain ⟨es, hes, -⟩ := exists_run_handleAmid c [] true sent command false merged overdue
    exact ⟨.send (.command command false) :: es, hes⟩

theorem exists_run_session (c : Collector) (sent : List Shipment) (ds : List Deed) :
    ∃ es, run? ⟨c, .serving, [], true, sent⟩ es
      = some ⟨c.after ds, .serving, [], true, sent ++ c.sent ds⟩ := by
  induction ds generalizing c sent with
  | nil =>
    refine ⟨[], ?_⟩
    rw [Collector.sent, Collector.turns, List.flatMap_nil, List.append_nil]
    rfl
  | cons d ds ih =>
    obtain ⟨es, hes⟩ := exists_run_proceed c sent d
    obtain ⟨fs, hfs⟩ := ih (c.proceed d).collector (sent ++ (c.proceed d).shipments)
    refine ⟨es ++ fs, ?_⟩
    rw [run?_append, hes, Option.bind_some, hfs, Collector.sent_cons, List.append_assoc]
    rfl

/--
Whether a service comes to its end at `t` after it has sent what a collector sends in the course of
a session.
-/
structure Finishes (s : Thread) (ds : List Deed) (t : Thread) : Prop where
  run : ∃ es, s.run? es = some t
  shipments :
    t.shipments = s.collector.sent ds ++ (s.collector.after ds).finalFlush.shipments
  stopped : t.Stopped

theorem exists_finishes (threshold : Tally) (registry : Registry) (sinks : List Sink)
    (ds : List Deed) :
    ∃ t, (launch threshold registry sinks).Finishes ds t ∧ t.point = .returned := by
  let c := (launch threshold registry sinks).collector
  obtain ⟨es, hes⟩ := exists_run_session c [] ds
  obtain ⟨n, hn⟩ := works_finalFlush (c.after ds) [] false (c.sent ds)
  -- Nobody can send any more after the session, so the service leaves.
  have hclosed : (launch threshold registry sinks).run?
      (es ++ .hangUp :: .work :: List.replicate n .work)
      = some (after ⟨c.after ds, .closed, [], false, c.sent ds⟩ (c.after ds).finalFlush) :=
    run?_append_eq_some_iff.2 ⟨_, hes, hn⟩
  obtain ⟨fs, t, hfs, hreturned, hshipments⟩ :=
    exists_run_of_closed ((noted_start threshold registry sinks).run hclosed) (.inl rfl)
  have hrun := run?_append_eq_some_iff.2 ⟨_, hclosed, hfs⟩
  exact ⟨t, ⟨⟨_, hrun⟩, hshipments, stopped_of_returned hrun nofun hreturned⟩, hreturned⟩

def flushes (s : Thread) : List Batch :=
  (s.shipments.filter (·.cause = .flush)).map Shipment.batch

def reports (s : Thread) : List Batch :=
  (s.shipments.filter (·.cause ≠ .flush)).map Shipment.batch

theorem perm_batches (s : Thread) : s.batches.Perm (s.flushes ++ s.reports) := by
  unfold batches flushes reports
  rw [← List.map_append]
  simp only [ne_eq, decide_not]
  exact ((List.filter_append_perm _ s.shipments).map _).symm

theorem Finishes.flushes_eq {t u : Thread} {ds : List (Deed × Bool)}
    (hsound : s.collector.registry.Sound) (hsilent : s.collector.MarksSilent ds)
    (ht : s.Finishes (ds.map Prod.fst) t) (hu : s.Finishes (Collector.kept ds) u) :
    t.flushes = u.flushes := by
  obtain ⟨-, halike, hsent⟩ := (Collector.Alike.refl _).kept hsound hsilent
  have hfinal : (s.collector.after (ds.map Prod.fst)).finalFlush.shipments
      = (s.collector.after (Collector.kept ds)).finalFlush.shipments :=
    congrArg (·.2.2.1) halike.finalFlush
  unfold flushes
  rw [ht.shipments, hu.shipments, List.filter_append, List.filter_append, hsent, hfinal]

/--
If snapshots that are refused, lookups and state reports are left out of a session, then the sinks
are handed the same flushes, each of them once, and only the reports differ.
-/
theorem flushes_received_alike (hregistry : registry.Reachable) {ds : List (Deed × Bool)}
    (hsilent : (launch threshold registry sinks).collector.MarksSilent ds) {t u : Thread}
    (ht : (launch threshold registry sinks).Finishes (ds.map Prod.fst) t)
    (hu : (launch threshold registry sinks).Finishes (Collector.kept ds) u) :
    t.flushes = u.flushes
      ∧ (∀ v ∈ t.collector.outbox.stations, v.handed.Perm (t.flushes ++ t.reports))
      ∧ ∀ v ∈ u.collector.outbox.stations, v.handed.Perm (t.flushes ++ u.reports) := by
  have hflushes := ht.flushes_eq hregistry.sound hsilent hu
  obtain ⟨es, hes⟩ := ht.run
  obtain ⟨fs, hfs⟩ := hu.run
  refine ⟨hflushes, ?_, ?_⟩
  . intro v hv
    exact (handed_of_stopped hes ht.stopped v hv).1.trans t.perm_batches
  . intro v hv
    rw [hflushes]
    exact (handed_of_stopped hfs hu.stopped v hv).1.trans u.perm_batches

end Thread

end Metering
