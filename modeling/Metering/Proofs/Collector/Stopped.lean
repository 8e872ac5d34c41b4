import Metering.Proofs.Collector.Step
import Metering.Proofs.Outbox.Journal

/-!
This module contains that a service which has stopped has delivered everything: each batch that it
ever sent was handed to each sink once, and each sink was released once for it, in whatever order
the deliveries went on and in whatever way they ended.
-/

namespace Metering.Thread

/--
What a step of the service sends. Without sinks a batch is dropped.
-/
inductive Sends (s s' : Thread) : Prop where
  | nothing (houtbox : s'.collector.outbox = s.collector.outbox)
    (hshipments : s'.shipments = s.shipments)
  | dropped (hsinks : s.collector.sinks = 0) (houtbox : s'.collector.outbox = s.collector.outbox.tidy)
    (hshipments : s'.shipments = s.shipments)
  | batch (x : Shipment) (hsinks : s.collector.sinks ≠ 0)
    (houtbox : s'.collector.outbox = s.collector.outbox.tidy.dispatch x.batch)
    (hshipments : s'.shipments = s.shipments ++ [x])

variable {s s' : Thread} {e : Event}

theorem sends_ship {c : Collector} (houtbox : c.outbox = s.collector.outbox) (cause : Cause)
    (b : Batch) (hcollector : s'.collector = (c.ship cause b).1)
    (hshipments : s'.shipments = s.shipments ++ (c.ship cause b).2.1) : Sends s s' := by
  by_cases hsinks : c.sinks = 0
  . obtain ⟨hship, hnone⟩ := Collector.ship_of_no_sinks hsinks cause b
    have hsinks : s.collector.sinks = 0 := by
      rw [Collector.sinks, ← houtbox]
      exact hsinks
    rw [hnone, List.append_nil] at hshipments
    refine .dropped hsinks ?_ hshipments
    rw [hcollector, hship, houtbox]
  . rw [Collector.ship_of_sinks hsinks] at hcollector hshipments
    have hsinks : s.collector.sinks ≠ 0 := by
      rw [Collector.sinks, ← houtbox]
      exact hsinks
    refine .batch ⟨cause, b⟩ hsinks ?_ hshipments
    rw [hcollector, houtbox]

theorem sends_flush {t : Thread} (hsent : t.shipments = s.shipments) :
    Sends s (t.after (s.collector.handle .flush)) :=
  sends_ship (c := { s.collector with registry := s.collector.registry.reset }) rfl .flush
    s.collector.registry.pairs rfl (congrArg (· ++ _) hsent)

theorem sends_accept (payload : Bytes) (qs : List Request) :
    Sends s
      (match s.collector.accept payload with
        | (.error _, c, _) => { s with collector := c, queue := qs }
        | (.ok _, c, _) => { s with collector := c, queue := qs, point := .merged }) := by
  have houtbox := s.collector.outbox_accept payload
  cases haccept : s.collector.accept payload with
  | mk result rest =>
    rw [haccept] at houtbox
    cases result with
    | error e => exact .nothing houtbox rfl
    | ok n => exact .nothing houtbox rfl

theorem sends_perform (command : Command) (qs : List Request) :
    Sends s (perform { s with queue := qs } command) := by
  cases command with
  | ingest payload => apply sends_accept payload qs
  | submit payload => apply sends_accept payload qs
  | flush => exact sends_flush (s := s) (t := { s with queue := qs }) rfl
  | systemState state updated => exact sends_ship rfl _ _ rfl rfl
  | get name => exact .nothing rfl (List.append_nil _)

theorem sends_of_work (hs : s.work? = some s') : Sends s s' := by
  unfold work? at hs
  split at hs
  . unfold take? at hs
    split at hs
    . split at hs
      . cases hs
      . cases hs
        exact .nothing rfl rfl
    . cases hs
      exact .nothing rfl rfl
    . cases hs
      apply sends_perform
  . cases hs
    exact .nothing rfl rfl
  . cases hs
    exact sends_flush (s := s) (t := { s with point := .serving }) rfl
  . cases hs
    exact .nothing rfl rfl
  . cases hs
    exact sends_flush (s := s) (t := { s with point := .closed }) rfl
  . split at hs
    . cases hs
      exact .nothing rfl rfl
    . cases hs
  . cases hs

/-!
## The account of a run
-/

def batches (s : Thread) : List Batch :=
  s.shipments.map Shipment.batch

/--
The account of deliveries after an event. A batch that is sent gets the next number.
-/
def noted (s s' : Thread) (j : Journal) : Event → Journal
  | .hand i p => j.reach i p .handed
  | .release i p _ => j.reach i p .released
  | _ =>
    if s.shipments.length < s'.shipments.length then
      (j.tidy s.collector.outbox).dispatch s.shipments.length
    else
      j

def journal (s : Thread) (j : Journal) : List Event → Journal
  | [] => j
  | e :: es =>
    match s.step? e with
    | some s' => s'.journal (s.noted s' j e) es
    | none => j

/--
A service has stopped when it is closed and no delivery is left to wait for.
-/
def Stopped (s : Thread) : Prop :=
  s.Closed ∧ s.collector.outbox.idle

/--
Whether an account is that of a thread. A thread without sinks has never sent anything.
-/
structure Noted (s : Thread) (j : Journal) : Prop where
  tracks : j.Tracks s.collector.outbox s.batches
  unsent : s.collector.sinks = 0 → s.shipments = []

variable {j : Journal}

theorem Noted.inFlight_eq_nil (h : s.Noted j) (hsinks : s.collector.sinks = 0) :
    s.collector.outbox.inFlight = [] := by
  have hheld : j.held = [] := by
    apply List.eq_nil_iff_forall_not_mem.2
    intro k hk
    have hlt := h.tracks.lt_of_mem_held hk
    rw [batches, h.unsent hsinks] at hlt
    exact absurd hlt (Nat.not_lt_zero k)
  rw [← List.length_eq_zero_iff, ← h.tracks.length_held, hheld, List.length_nil]

theorem Noted.tidy_eq_self (h : s.Noted j) (hsinks : s.collector.sinks = 0) :
    s.collector.outbox.tidy = s.collector.outbox := by
  have hnil := h.inFlight_eq_nil hsinks
  unfold Outbox.tidy
  rw [hnil, List.filter_nil, ← hnil]

theorem Noted.tracks_of_sends (h : s.Noted j) (hsends : Sends s s') :
    (if s.shipments.length < s'.shipments.length then
      (j.tidy s.collector.outbox).dispatch s.shipments.length
    else j).Tracks s'.collector.outbox s'.batches := by
  unfold batches
  cases hsends with
  | nothing houtbox hshipments =>
    rw [houtbox, hshipments, if_neg (Nat.lt_irrefl _)]
    exact h.tracks
  | dropped hsinks houtbox hshipments =>
    rw [houtbox, hshipments, if_neg (Nat.lt_irrefl _), h.tidy_eq_self hsinks]
    exact h.tracks
  | batch x _ houtbox hshipments =>
    have hlt : s.shipments.length < s'.shipments.length := by
      rw [hshipments, List.length_append]
      exact Nat.lt_succ_self _
    have hdispatch := h.tracks.tidy.dispatch x.batch
    rw [batches, List.length_map] at hdispatch
    rw [if_pos hlt, houtbox, hshipments, List.map_append]
    exact hdispatch

theorem Noted.tracks_of_step (h : s.Noted j) (hs : s.step? e = some s') :
    (s.noted s' j e).Tracks s'.collector.outbox s'.batches := by
  cases e with
  | work => exact h.tracks_of_sends (sends_of_work hs)
  | send q =>
    simp only [step?] at hs
    split at hs
    . cases hs
      exact h.tracks_of_sends (.nothing rfl rfl)
    . cases hs
  | hangUp =>
    cases hs
    exact h.tracks_of_sends (.nothing rfl rfl)
  | register m =>
    simp only [step?] at hs
    split at hs
    . cases hs
    . cases hs
      exact h.tracks_of_sends (.nothing rfl rfl)
  | update now name u =>
    simp only [step?] at hs
    split at hs
    . cases hs
    . cases hs
      exact h.tracks_of_sends (.nothing rfl rfl)
  | hand i p =>
    simp only [step?, Option.map_eq_some_iff] at hs
    obtain ⟨⟨o, _⟩, ho, rfl⟩ := hs
    exact h.tracks.hand ho
  | release i p outcome =>
    simp only [step?, Option.map_eq_some_iff] at hs
    obtain ⟨⟨o, _⟩, ho, rfl⟩ := hs
    exact h.tracks.release ho

theorem Noted.step (h : s.Noted j) (hs : s.step? e = some s') : s'.Noted (s.noted s' j e) where
  tracks := h.tracks_of_step hs
  unsent := by
    rw [sinks_of_step hs]
    intro hsinks
    cases step_cases hs with
    | inr hsame => rw [hsame.2.1, h.unsent hsinks]
    | inl hwork =>
      cases sends_of_work hwork.2 with
      | nothing _ hshipments => rw [hshipments, h.unsent hsinks]
      | dropped _ _ hshipments => rw [hshipments, h.unsent hsinks]
      | batch _ hne => exact absurd hsinks hne

theorem Noted.run (h : s.Noted j) {es : List Event} (hs : s.run? es = some s') :
    s'.Noted (s.journal j es) := by
  induction es generalizing s j with
  | nil =>
    cases hs
    exact h
  | cons e es ih =>
    obtain ⟨t, ht, hs⟩ := run?_cons_eq_some_iff.1 hs
    rw [journal, ht]
    apply ih (h.step ht) hs

/-!
## The return of the service
-/

theorem idle_of_work (hs : s.work? = some s') (hreturned : s'.point = .returned) :
    s'.collector.outbox.idle := by
  unfold work? at hs
  split at hs
  . next hpoint => exact absurd (.inr hreturned) (take_spec hpoint hs).2
  . cases hs
    dsimp only at hreturned
    split at hreturned <;> cases hreturned
  . cases hs
    cases hreturned
  . cases hs
    dsimp only at hreturned
    split at hreturned <;> cases hreturned
  . cases hs
    cases hreturned
  . split at hs
    . next hidle =>
      cases hs
      exact hidle
    . cases hs
  . cases hs

/--
Nothing is delivered any more once the service has returned.
-/
theorem idle_of_step (h : s.point = .returned → s.collector.outbox.idle)
    (hs : s.step? e = some s') (hreturned : s'.point = .returned) : s'.collector.outbox.idle := by
  cases e with
  | work => apply idle_of_work hs hreturned
  | send q =>
    simp only [step?] at hs
    split at hs
    . cases hs
      apply h hreturned
    . cases hs
  | hangUp =>
    cases hs
    apply h hreturned
  | register m =>
    simp only [step?] at hs
    split at hs
    . cases hs
    . cases hs
      apply h hreturned
  | update now name u =>
    simp only [step?] at hs
    split at hs
    . cases hs
    . cases hs
      apply h hreturned
  | hand i p =>
    simp only [step?, Option.map_eq_some_iff] at hs
    obtain ⟨⟨o, _⟩, ho, rfl⟩ := hs
    rw [Outbox.hand?_of_idle (h hreturned)] at ho
    cases ho
  | release i p outcome =>
    simp only [step?, Option.map_eq_some_iff] at hs
    obtain ⟨⟨o, _⟩, ho, rfl⟩ := hs
    rw [Outbox.release?_of_idle (h hreturned)] at ho
    cases ho

theorem stopped_of_returned {es : List Event} (hs : s.run? es = some s')
    (h : s.point = .returned → s.collector.outbox.idle) (hreturned : s'.point = .returned) :
    s'.Stopped := by
  induction es generalizing s with
  | nil =>
    cases hs
    exact ⟨.inr hreturned, h hreturned⟩
  | cons e es ih =>
    obtain ⟨t, ht, hs⟩ := run?_cons_eq_some_iff.1 hs
    apply ih hs (idle_of_step h ht)

theorem noted_start (threshold : Tally) (registry : Registry) (sinks : List Sink) :
    (start ⟨threshold, registry, .ofStations (sinks.map (.ofSink · .wide))⟩).Noted .empty where
  tracks := by
    apply Journal.tracks_start
    intro s hs
    obtain ⟨sink, -, rfl⟩ := List.mem_map.1 hs
    exact ⟨rfl, rfl⟩
  unsent _ := rfl

theorem sinks_of_run {es : List Event} (hs : s.run? es = some s') :
    s'.collector.sinks = s.collector.sinks := by
  induction es generalizing s with
  | nil =>
    cases hs
    rfl
  | cons e es ih =>
    obtain ⟨t, ht, hs⟩ := run?_cons_eq_some_iff.1 hs
    rw [ih hs, sinks_of_step ht]

/--
Wherever the deliveries and the service have got to, each batch that was sent is in flight, or each
sink was handed it once and released once for it. When the service has stopped, nothing is in
flight, so every sink has been handed all batches once each. Each flush and each state report sends
one batch, unless there are no sinks. Then nothing is ever sent, and what is flushed is lost.
-/
theorem delivered_of_stopped {threshold : Tally} {registry : Registry} {sinks : List Sink}
    {es : List Event} {s : Thread}
    (hrun : (start ⟨threshold, registry, .ofStations (sinks.map (.ofSink · .wide))⟩).run? es
      = some s) :
    let j := (start ⟨threshold, registry, .ofStations (sinks.map (.ofSink · .wide))⟩).journal
      .empty es
    (∀ k < s.batches.length,
        (∃ d, (k, d) ∈ j.held.zip s.collector.outbox.inFlight ∧ s.batches[k]? = some d.batch)
          ∨ ∀ p < sinks.length,
            j.log.count ⟨k, p, .handed⟩ = 1 ∧ j.log.count ⟨k, p, .released⟩ = 1)
      ∧ (∀ x, j.log.count x ≤ 1)
      ∧ s.collector.outbox.stations.length = sinks.length
      ∧ (∀ p t, s.collector.outbox.stations[p]? = some t →
        t.handed = Journal.reached s.batches p .handed j.log
          ∧ t.released = (Journal.reached s.batches p .released j.log).length)
      ∧ (s.Stopped →
        (∀ k < s.batches.length, ∀ p < sinks.length,
            j.log.count ⟨k, p, .handed⟩ = 1 ∧ j.log.count ⟨k, p, .released⟩ = 1)
          ∧ ∀ t ∈ s.collector.outbox.stations,
            t.handed.Perm s.batches ∧ t.released = s.batches.length)
      ∧ (s.point = .returned → s.Stopped)
      ∧ (sinks = [] → s.batches = [] ∧ s.collector.outbox.inFlight = [])
      ∧ (s.collector.handle .flush).collector.registry = s.collector.registry.reset
      ∧ (s.collector.handle .flush).shipments
        = (if sinks = [] then [] else [⟨.flush, s.collector.registry.pairs⟩])
      ∧ ∀ state updated, (s.collector.handle (.systemState state updated)).shipments
        = if sinks = [] then []
          else [⟨.systemState, [("SystemState", state), ("TimeUpdated", Integer.text updated)]⟩] := by
  intro j
  have h := (noted_start threshold registry sinks).run hrun
  have hsinks : s.collector.sinks = sinks.length := (sinks_of_run hrun).trans (List.length_map _)
  have hnone : s.collector.sinks = 0 ↔ sinks = [] := by
    rw [hsinks, List.length_eq_zero_iff]
  refine ⟨?_, h.tracks.count_le_one, hsinks, ?_, ?_, stopped_of_returned hrun nofun, ?_,
    s.collector.registry_flush, ?_, ?_⟩
  . rw [← hsinks]
    intro k hk
    apply h.tracks.held_or_ended hk
  . intro p t ht
    exact ⟨h.tracks.handed p t ht, h.tracks.released p t ht⟩
  . intro hstopped
    rw [← hsinks]
    apply h.tracks.ended_of_idle hstopped.2
  . intro hempty
    have hempty := hnone.2 hempty
    refine ⟨?_, h.inFlight_eq_nil hempty⟩
    rw [batches, h.unsent hempty, List.map_nil]
  . simp only [← hnone]
    apply Collector.shipments_ship
  . intro state updated
    simp only [← hnone]
    apply Collector.shipments_ship

/--
Two sinks, of which one panics and one fails, with a flush and a state report that is sent while the
flush is still being delivered to one of them.
-/
theorem delivered_of_stopped_queue :
    let as : List Action :=
      [.create 0, .register 0 (.create 0 .integerGauge "queue" ""),
        .update 0 1 "queue" (.value (.integer 5))]
    let sinks : List Sink := [⟨"disk", .received, false⟩, ⟨"remote", .received, false⟩]
    let es : List Event :=
      [.send (.command .flush false), .send (.command (.systemState "Running" 2) false),
        .send .shutdown, .work, .hand 0 0, .hand 0 1, .release 0 1 (.panicked "lost"), .work,
        .hand 1 1, .release 0 0 (.failed (.io "full")), .hand 1 0, .work, .work,
        .release 1 1 .received, .release 1 0 .received, .work]
    ∃ r s, World.run as 0 = some r
      ∧ (start ⟨9, r, .ofStations (sinks.map (.ofSink · .wide))⟩).run? es = some s
      ∧ s.point = .returned
      ∧ s.Stopped
      ∧ s.batches = [[("queue", "0"), ("queue", "5")],
        [("SystemState", "Running"), ("TimeUpdated", "2")]]
      ∧ ∀ t ∈ s.collector.outbox.stations, t.handed.Perm s.batches ∧ t.released = 2 := by
  intro as sinks es
  obtain ⟨r, hr⟩ := Option.isSome_iff_exists.1 (by decide : (World.run as 0).isSome)
  have hrun : (World.run as 0).bind (fun r =>
      ((start ⟨9, r, .ofStations (sinks.map (.ofSink · .wide))⟩).run? es).map fun s =>
        (s.point, s.batches))
      = some (.returned, [[("queue", "0"), ("queue", "5")],
        [("SystemState", "Running"), ("TimeUpdated", "2")]]) := by decide +kernel
  rw [hr, Option.bind_some, Option.map_eq_some_iff] at hrun
  obtain ⟨s, hs, heq⟩ := hrun
  simp only [Prod.mk.injEq] at heq
  obtain ⟨hpoint, hbatches⟩ := heq
  obtain ⟨-, -, -, -, hdelivered, hreturned, -⟩ := delivered_of_stopped hs
  have hstopped := hreturned hpoint
  refine ⟨r, s, hr, hs, hpoint, hstopped, hbatches, ?_⟩
  intro t ht
  obtain ⟨hhanded, hreleased⟩ := (hdelivered hstopped).2 t ht
  refine ⟨hhanded, ?_⟩
  rw [hreleased, hbatches]
  rfl

end Metering.Thread
