import Metering.Collector.Thread
import Metering.Proofs.Collector.Basic
import Metering.Proofs.Registry.Total

/-!
This module contains what an event can do to the registry and to the batches that were sent, however
the service gets to do it.
-/

namespace Metering

namespace Outbox

theorem length_stations_of_hand? {o o' : Outbox} {i p : Nat} {lines : List Line}
    (h : o.hand? i p = some (o', lines)) : o'.stations.length = o.stations.length := by
  unfold hand? at h
  split at h
  . split at h
    . cases h
      rw [List.length_set]
    . cases h
  . cases h

theorem length_stations_of_release? {o o' : Outbox} {i p : Nat} {outcome : Outcome}
    {lines : List Line} (h : o.release? i p outcome = some (o', lines)) :
    o'.stations.length = o.stations.length := by
  unfold release? at h
  split at h
  . split at h
    . cases h
      rw [List.length_set]
    . cases h
  . cases h

end Outbox

namespace Collector

/--
The metrics of a snapshot if the collector accepts it.
-/
def accepted (c : Collector) (payload : Bytes) : List Tracked :=
  match Snapshot.decode payload, (c.accept payload).1 with
  | .ok ts, .ok _ => ts
  | _, _ => []

theorem accepted_of_error {c c' : Collector} {payload : Bytes} {e : IngestError}
    {lines : List Line} (h : c.accept payload = (.error e, c', lines)) :
    c.accepted payload = [] := by
  unfold accepted
  rw [h]
  cases Snapshot.decode payload <;> rfl

theorem accepted_of_ok {c c' : Collector} {payload : Bytes} {ts : List Tracked} {n : Nat}
    {lines : List Line} (hdec : Snapshot.decode payload = .ok ts)
    (h : c.accept payload = (.ok n, c', lines)) : c.accepted payload = ts := by
  unfold accepted
  rw [hdec, h]

def taken (c : Collector) : Command → List Tracked
  | .ingest payload => c.accepted payload
  | .submit payload => c.accepted payload
  | _ => []

end Collector

/--
Whether something that was sent is the report of a state.
-/
def Shipment.IsReport (x : Shipment) : Prop :=
  ∃ state updated, x = ⟨.systemState,
    [(Collector.stateKey, state), (Collector.timeKey, Integer.text updated)]⟩

theorem Shipment.IsReport.cause_ne {x : Shipment} (h : x.IsReport) : x.cause ≠ .flush := by
  obtain ⟨state, updated, rfl⟩ := h
  nofun

namespace Thread

/--
The metrics that are merged into the registry with an event.
-/
def merged (s : Thread) : Event → List Tracked
  -- A snapshot counts when it is merged, not when it is sent.
  | .work =>
    match s.point, s.queue with
    | .serving, .command command _ :: _ => s.collector.taken command
    | _, _ => []
  | _ => []

/--
Whether a metric is updated or merged with an event.
-/
def Changes (s : Thread) (name : String) (e : Event) : Prop :=
  name ∈ (s.merged e).map Tracked.name
    ∨ ∃ now u r, e = .update now name u ∧ s.collector.registry.update now name u = .ok r

/--
What an event does. If it is neither an update nor the merge of a snapshot, no metric is changed.
-/
inductive Effect (s s' : Thread) (e : Event) : Prop where
  | rest (sent : List Shipment) (hquiet : ∀ name, ¬s.Changes name e)
    (hregistry : s'.collector.registry = s.collector.registry)
    (hshipments : s'.shipments = s.shipments ++ sent) (hsent : ∀ x ∈ sent, x.IsReport)
  | flush (hquiet : ∀ name, ¬s.Changes name e)
    (hregistry : s'.collector.registry = s.collector.registry.reset)
    (hshipments : s'.shipments = s.shipments ++ [⟨.flush, s.collector.registry.pairs⟩])
  | register (m : Metric) (hquiet : ∀ name, ¬s.Changes name e)
    (hregistry : s.collector.registry.register? m = some s'.collector.registry)
    (hshipments : s'.shipments = s.shipments)
  | update (now : Int64) (name : String) (u : Update) (he : e = .update now name u)
    (hregistry : s.collector.registry.update now name u = .ok s'.collector.registry)
    (hshipments : s'.shipments = s.shipments)
  | merge (n : Nat) (he : e = .work) (hsound : ∀ t ∈ s.merged e, t.Sound)
    (hnodup : ((s.merged e).map Tracked.name).Nodup)
    (hregistry : s.collector.registry.merge (.ofEntries (s.merged e))
      = (s'.collector.registry, .ok n))
    (hshipments : s'.shipments = s.shipments)

variable {s s' : Thread} {e : Event}

theorem not_changes {name : String} (hmerged : s.merged e = [])
    (he : ∀ now u r, e = .update now name u → s.collector.registry.update now name u ≠ .ok r) :
    ¬s.Changes name e := by
  rintro (hmem | ⟨now, u, r, heq, hr⟩)
  . rw [hmerged] at hmem
    cases hmem
  . exact he now u r heq hr

/--
An event that leaves the registry and the batches alone, other than a snapshot that is merged or an
update that succeeds.
-/
theorem Effect.same (hmerged : s.merged e = [])
    (he : ∀ now name u r, e = .update now name u → s.collector.registry.update now name u ≠ .ok r)
    (hregistry : s'.collector.registry = s.collector.registry)
    (hshipments : s'.shipments = s.shipments) : Effect s s' e :=
  .rest [] (fun name => not_changes hmerged fun now => he now name) hregistry
    (by rw [hshipments, List.append_nil]) nofun

/-!
## The steps of the service
-/

theorem effect_flush {t : Thread} (hsinks : s.collector.sinks ≠ 0) (hmerged : s.merged .work = [])
    (hsent : t.shipments = s.shipments) :
    Effect s (t.after (s.collector.handle .flush)) .work := by
  have hsinks : Collector.sinks { s.collector with registry := s.collector.registry.reset } ≠ 0 :=
    hsinks
  unfold Collector.handle Collector.flush Registry.drain after
  simp only [Collector.ship_of_sinks hsinks, hsent]
  exact .flush (fun _ => not_changes hmerged nofun) rfl rfl

theorem effect_systemState {t : Thread} (hsinks : s.collector.sinks ≠ 0)
    (hmerged : s.merged .work = []) (hsent : t.shipments = s.shipments) (state : String)
    (updated : Int64) :
    Effect s (t.after (s.collector.handle (.systemState state updated))) .work := by
  unfold Collector.handle after
  simp only [Collector.ship_of_sinks hsinks, hsent]
  refine .rest _ (fun _ => not_changes hmerged nofun) rfl rfl ?_
  intro x hx
  exact ⟨state, updated, List.mem_singleton.1 hx⟩

theorem effect_accept (hsound : s.collector.registry.Sound) {payload : Bytes}
    (hmerged : s.merged .work = s.collector.accepted payload) (qs : List Request) :
    Effect s
      (match s.collector.accept payload with
        | (.error _, c, _) => { s with collector := c, queue := qs }
        | (.ok _, c, _) => { s with collector := c, queue := qs, point := .merged })
      .work := by
  cases s.collector.accept_cases hsound payload with
  | inl hrefused =>
    obtain ⟨e, lines, haccept⟩ := hrefused
    rw [Collector.accepted_of_error haccept] at hmerged
    rw [haccept]
    exact .same hmerged nofun rfl rfl
  | inr haccepted =>
    obtain ⟨ts, n, r, lines, hdec, -, hmerge, haccept⟩ := haccepted
    rw [Collector.accepted_of_ok hdec haccept] at hmerged
    rw [haccept]
    obtain ⟨hts, hnodup⟩ := Snapshot.sound_of_decode hdec
    rw [← hmerged] at hts hnodup hmerge
    exact .merge n rfl hts hnodup hmerge rfl

theorem effect_perform (hsound : s.collector.registry.Sound) (hsinks : s.collector.sinks ≠ 0)
    {command : Command} (hmerged : s.merged .work = s.collector.taken command)
    (qs : List Request) : Effect s (perform { s with queue := qs } command) .work := by
  cases command with
  | ingest payload => apply effect_accept hsound hmerged qs
  | submit payload => apply effect_accept hsound hmerged qs
  | flush => exact effect_flush (t := { s with queue := qs }) hsinks hmerged rfl
  | systemState state updated =>
    exact effect_systemState (t := { s with queue := qs }) hsinks hmerged rfl state updated
  | get name => exact .same hmerged nofun rfl (List.append_nil _)

theorem effect_take (hsound : s.collector.registry.Sound) (hsinks : s.collector.sinks ≠ 0)
    (hpoint : s.point = .serving) (hs : s.take? = some s') : Effect s s' .work := by
  unfold take? at hs
  split at hs
  . next hqueue =>
    have hmerged : s.merged .work = [] := by simp only [merged, hpoint, hqueue]
    split at hs
    . cases hs
    . cases hs
      exact .same hmerged nofun rfl rfl
  . next qs hqueue =>
    have hmerged : s.merged .work = [] := by simp only [merged, hpoint, hqueue]
    cases hs
    exact .same hmerged nofun rfl rfl
  . next command _ qs hqueue =>
    have hmerged : s.merged .work = s.collector.taken command := by
      simp only [merged, hpoint, hqueue]
    cases hs
    apply effect_perform hsound hsinks hmerged

theorem effect_work (hsound : s.collector.registry.Sound) (hsinks : s.collector.sinks ≠ 0)
    (hs : s.work? = some s') : Effect s s' .work := by
  unfold work? at hs
  split at hs
  . next hpoint => apply effect_take hsound hsinks hpoint hs
  . next hpoint =>
    have hmerged : s.merged .work = [] := by simp only [merged, hpoint]
    cases hs
    exact .same hmerged nofun rfl rfl
  . next hpoint =>
    have hmerged : s.merged .work = [] := by simp only [merged, hpoint]
    cases hs
    exact effect_flush (t := { s with point := .serving }) hsinks hmerged rfl
  . next hpoint =>
    have hmerged : s.merged .work = [] := by simp only [merged, hpoint]
    cases hs
    exact .same hmerged nofun rfl rfl
  . next hpoint =>
    have hmerged : s.merged .work = [] := by simp only [merged, hpoint]
    cases hs
    exact effect_flush (t := { s with point := .closed }) hsinks hmerged rfl
  . next hpoint =>
    have hmerged : s.merged .work = [] := by simp only [merged, hpoint]
    split at hs
    . cases hs
      exact .same hmerged nofun rfl rfl
    . cases hs
  . cases hs

/-!
## All steps
-/

theorem effect_of_step (hsound : s.collector.registry.Sound) (hsinks : s.collector.sinks ≠ 0)
    (hs : s.step? e = some s') : Effect s s' e := by
  cases e with
  | send q =>
    simp only [step?] at hs
    split at hs
    . cases hs
      exact .same rfl nofun rfl rfl
    . cases hs
  | hangUp =>
    cases hs
    exact .same rfl nofun rfl rfl
  | work => apply effect_work hsound hsinks hs
  | register m =>
    simp only [step?] at hs
    split at hs
    . cases hs
    . cases hs
      cases hr : s.collector.registry.register? m with
      | none => exact .same rfl nofun rfl rfl
      | some r => exact .register m (fun _ => not_changes rfl nofun) hr rfl
  | update now name u =>
    simp only [step?] at hs
    split at hs
    . cases hs
    . cases hs
      cases hr : s.collector.registry.update now name u with
      | ok r =>
        obtain rfl := Registry.fst_perform_of_ok hr
        exact .update now name u rfl hr rfl
      | error err =>
        refine .same rfl ?_ (Registry.fst_perform_of_error hr) rfl
        intro now' name' u' r heq
        cases heq
        rw [hr]
        nofun
  | hand i p =>
    simp only [step?, Option.map_eq_some_iff] at hs
    obtain ⟨o, -, rfl⟩ := hs
    exact .same rfl nofun rfl rfl
  | release i p outcome =>
    simp only [step?, Option.map_eq_some_iff] at hs
    obtain ⟨o, -, rfl⟩ := hs
    exact .same rfl nofun rfl rfl

theorem Effect.sound (h : Effect s s' e) (hsound : s.collector.registry.Sound) :
    s'.collector.registry.Sound := by
  cases h with
  | rest sent _ hregistry _ _ =>
    rw [hregistry]
    exact hsound
  | flush _ hregistry _ =>
    rw [hregistry]
    apply hsound.reset
  | register m _ hregistry _ => exact (hsound.register? hregistry).1
  | update now name u _ hregistry _ => exact (hsound.update hregistry).1
  | merge n _ hts hnodup hregistry _ =>
    have hmerge := (hsound.merge (Registry.sound_ofEntries hts hnodup)).1
    rw [hregistry] at hmerge
    exact hmerge

/-!
## The sinks and the end of the service
-/

theorem perform_spec (s : Thread) (command : Command) :
    (s.perform command).collector.sinks = s.collector.sinks
      ∧ ((s.perform command).point = s.point ∨ (s.perform command).point = .merged) := by
  have haccept (payload : Bytes) : (s.perform (.ingest payload)).collector.sinks
      = s.collector.sinks ∧ ((s.perform (.ingest payload)).point = s.point
        ∨ (s.perform (.ingest payload)).point = .merged) := by
    rw [← s.collector.sinks_accept payload]
    simp only [perform]
    cases s.collector.accept payload with
    | mk result rest =>
      cases result with
      | error e => exact ⟨rfl, .inl rfl⟩
      | ok n => exact ⟨rfl, .inr rfl⟩
  cases command with
  | ingest payload => apply haccept payload
  | submit payload => apply haccept payload
  | flush => exact ⟨s.collector.sinks_flush, .inl rfl⟩
  | systemState state updated => exact ⟨s.collector.sinks_ship _ _, .inl rfl⟩
  | get name => exact ⟨rfl, .inl rfl⟩

theorem take_spec (hpoint : s.point = .serving) (hs : s.take? = some s') :
    s'.collector.sinks = s.collector.sinks ∧ ¬s'.Closed := by
  unfold take? at hs
  split at hs
  . split at hs
    . cases hs
    . cases hs
      exact ⟨rfl, nofun⟩
  . cases hs
    exact ⟨rfl, nofun⟩
  . next command _ qs _ =>
    cases hs
    obtain ⟨hsinks, hpoint' | hpoint'⟩ := perform_spec { s with queue := qs } command
    . refine ⟨hsinks, ?_⟩
      rw [Closed, hpoint', hpoint]
      nofun
    . refine ⟨hsinks, ?_⟩
      rw [Closed, hpoint']
      nofun

/--
The service closes only if there are no changes, and what it does then does not touch the registry.
-/
theorem work_spec (hs : s.work? = some s') :
    s'.collector.sinks = s.collector.sinks
      ∧ (s'.Closed → s.Closed ∧ s'.collector.registry = s.collector.registry
        ∨ s'.collector.registry.totalChanges.toNat = 0) := by
  unfold work? at hs
  split at hs
  . next hpoint =>
    obtain ⟨hsinks, hopen⟩ := take_spec hpoint hs
    exact ⟨hsinks, fun hclosed => absurd hclosed hopen⟩
  . cases hs
    refine ⟨rfl, ?_⟩
    unfold Closed
    dsimp only
    split <;> nofun
  . cases hs
    refine ⟨s.collector.sinks_flush, ?_⟩
    nofun
  . cases hs
    refine ⟨rfl, ?_⟩
    intro hclosed
    right
    unfold Closed at hclosed
    dsimp only at hclosed
    split at hclosed
    . simp at hclosed
    . next hpending => simpa [Collector.pending] using hpending
  . cases hs
    refine ⟨s.collector.sinks_flush, ?_⟩
    intro _
    right
    change s.collector.flush.2.1.registry.totalChanges.toNat = 0
    rw [Collector.registry_flush, Registry.totalChanges_reset, Tally.toNat_zero]
  . next hpoint =>
    split at hs
    . cases hs
      exact ⟨rfl, fun _ => .inl ⟨.inl hpoint, rfl⟩⟩
    . cases hs
  . cases hs

/--
The service does its own steps. All others leave it where it is and send nothing, and they leave the
registry alone once the service is closed.
-/
theorem step_cases (hs : s.step? e = some s') :
    (e = .work ∧ s.work? = some s')
      ∨ s'.point = s.point ∧ s'.shipments = s.shipments
        ∧ s'.collector.sinks = s.collector.sinks
        ∧ (s.Closed → s'.collector.registry = s.collector.registry) := by
  cases e with
  | work =>
    left
    exact ⟨rfl, hs⟩
  | send q =>
    right
    simp only [step?] at hs
    split at hs
    . cases hs
      exact ⟨rfl, rfl, rfl, fun _ => rfl⟩
    . cases hs
  | hangUp =>
    right
    cases hs
    exact ⟨rfl, rfl, rfl, fun _ => rfl⟩
  | register m =>
    right
    simp only [step?] at hs
    split at hs
    . cases hs
    . next hopen =>
      cases hs
      exact ⟨rfl, rfl, rfl, fun hclosed => absurd hclosed hopen⟩
  | update now name u =>
    right
    simp only [step?] at hs
    split at hs
    . cases hs
    . next hopen =>
      cases hs
      exact ⟨rfl, rfl, rfl, fun hclosed => absurd hclosed hopen⟩
  | hand i p =>
    right
    simp only [step?, Option.map_eq_some_iff] at hs
    obtain ⟨⟨o, _⟩, ho, rfl⟩ := hs
    exact ⟨rfl, rfl, Outbox.length_stations_of_hand? ho, fun _ => rfl⟩
  | release i p outcome =>
    right
    simp only [step?, Option.map_eq_some_iff] at hs
    obtain ⟨⟨o, _⟩, ho, rfl⟩ := hs
    exact ⟨rfl, rfl, Outbox.length_stations_of_release? ho, fun _ => rfl⟩

theorem sinks_of_step (hs : s.step? e = some s') :
    s'.collector.sinks = s.collector.sinks := by
  cases step_cases hs with
  | inl hwork => exact (work_spec hwork.2).1
  | inr hsame => exact hsame.2.2.1

theorem closed_of_step (h : s.Closed → s.collector.registry.totalChanges.toNat = 0)
    (hs : s.step? e = some s') (hclosed : s'.Closed) :
    s'.collector.registry.totalChanges.toNat = 0 := by
  cases step_cases hs with
  | inl hwork =>
    obtain ⟨hbefore, hregistry⟩ | hzero := (work_spec hwork.2).2 hclosed
    . rw [hregistry]
      apply h hbefore
    . exact hzero
  | inr hsame =>
    obtain ⟨hpoint, -, -, hregistry⟩ := hsame
    rw [Closed, hpoint] at hclosed
    rw [hregistry hclosed]
    apply h hclosed

end Thread

end Metering
