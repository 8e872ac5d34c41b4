import Metering.Proofs.Collector.Step
import Metering.Proofs.Registry.Past

/-!
This module contains where the values go that the collector comes to know. Each of them is either in
a batch that was flushed or in a history of the registry, in the order in which they came, and none
is left in a history when the service is closed.
-/

namespace Metering

namespace Registry

theorem Sound.past_eq_nil {r : Registry} (h : r.Sound) (hzero : r.totalChanges.toNat = 0)
    (name : String) : r.past name = [] := by
  rw [h.past_eq]
  cases ht : r.find? name with
  | none => rfl
  | some t => simp [Tracked.past, h.history_eq_nil hzero ht]

end Registry

theorem pastOf_of_not_mem {ts : List Tracked} {name : String} (h : name ∉ ts.map Tracked.name) :
    pastOf ts name = [] := by
  have hnone : ts.filter (·.name = name) = [] := by
    rw [List.filter_eq_nil_iff]
    intro t ht heq
    exact h (List.mem_map.2 ⟨t, ht, of_decide_eq_true heq⟩)
  rw [pastOf, hnone, List.flatMap_nil]

namespace Collector

def carried (c : Collector) (name : String) (payload : Bytes) : List String :=
  match Snapshot.decode payload, (c.accept payload).1 with
  | .ok ts, .ok _ => pastOf ts name
  | _, _ => []

def told (c : Collector) (name : String) : Command → List String
  | .ingest payload => c.carried name payload
  | .submit payload => c.carried name payload
  | _ => []

theorem carried_eq (c : Collector) (name : String) (payload : Bytes) :
    c.carried name payload = pastOf (c.accepted payload) name := by
  unfold carried accepted
  cases Snapshot.decode payload with
  | error e => rfl
  | ok ts => cases (c.accept payload).1 <;> rfl

theorem told_eq (c : Collector) (name : String) (command : Command) :
    c.told name command = pastOf (c.taken command) name := by
  cases command with
  | ingest payload => apply carried_eq
  | submit payload => apply carried_eq
  | flush => rfl
  | systemState state updated => rfl
  | get name => rfl

end Collector

namespace Thread

/--
The texts of the values of a name that become former ones with an event.
-/
def observed (s : Thread) (name : String) : Event → List String
  -- A snapshot counts when it is merged, not when it is sent.
  | .work =>
    match s.point, s.queue with
    | .serving, .command command _ :: _ => s.collector.told name command
    | _, _ => []
  | .update now key u => if key = name then s.collector.registry.overwritten now key u else []
  | _ => []

def observations (s : Thread) (name : String) : List Event → List String
  | [] => []
  | e :: es =>
    s.observed name e
      ++ match s.step? e with
        | some s => s.observations name es
        | none => []

/--
The texts of a name in the batches that were flushed, apart from the last one in each.
-/
def flushed (s : Thread) (name : String) : List String :=
  s.shipments.flatMap fun x => if x.cause = .flush then Batch.past x.batch name else []

/--
Whether all former values of each name were flushed or are still in the registry.
-/
structure Accounts (s : Thread) (past : String → List String) : Prop where
  sound : s.collector.registry.Sound
  sinks : s.collector.sinks ≠ 0
  flushed_append : ∀ name, s.flushed name ++ s.collector.registry.past name = past name
  closed : s.Closed → s.collector.registry.totalChanges.toNat = 0
  reports : ∀ x ∈ s.shipments, x.cause ≠ .flush → x.IsReport

variable {s s' : Thread} {e : Event} {past : String → List String}

theorem Accounts.congr {past' : String → List String} (h : s.Accounts past)
    (hpast : ∀ name, past' name = past name) : s.Accounts past' where
  sound := h.sound
  sinks := h.sinks
  flushed_append name := by rw [hpast, h.flushed_append]
  closed := h.closed
  reports := h.reports

theorem observed_work (s : Thread) (name : String) :
    s.observed name .work = pastOf (s.merged .work) name := by
  simp only [observed, merged]
  cases s.point with
  | serving =>
    cases s.queue with
    | nil => rfl
    | cons q qs =>
      cases q with
      | shutdown => rfl
      | command command _ => apply Collector.told_eq
  | _ => rfl

theorem observed_of_not_changes {name : String} (h : ¬s.Changes name e) :
    s.observed name e = [] := by
  cases e with
  | work =>
    rw [observed_work]
    apply pastOf_of_not_mem fun hmem => h (.inl hmem)
  | update now key u =>
    unfold observed
    dsimp only
    split
    . next hkey =>
      subst hkey
      cases hr : s.collector.registry.update now key u with
      | error e => apply Registry.overwritten_of_error hr
      | ok r => exact absurd (.inr ⟨now, u, r, rfl, hr⟩) h
    . rfl
  | send q => rfl
  | hangUp => rfl
  | register m => rfl
  | hand i p => rfl
  | release i p outcome => rfl

theorem flushed_append {sent : List Shipment} (h : s'.shipments = s.shipments ++ sent)
    (name : String) :
    s'.flushed name = s.flushed name
      ++ sent.flatMap fun x => if x.cause = .flush then Batch.past x.batch name else [] := by
  unfold flushed
  rw [h, List.flatMap_append]

theorem flushed_of_same (h : s'.shipments = s.shipments) (name : String) :
    s'.flushed name = s.flushed name := by
  unfold flushed
  rw [h]

/--
What is observed with an event is remembered by the registry, and what the registry remembers is
there until it is flushed.
-/
theorem Effect.flushed_append_past (h : Effect s s' e) (hsound : s.collector.registry.Sound)
    (name : String) :
    s'.flushed name ++ s'.collector.registry.past name
      = s.flushed name ++ s.collector.registry.past name ++ s.observed name e := by
  cases h with
  | rest sent hquiet hregistry hshipments hsent =>
    have hnil : sent.flatMap (fun x =>
        if x.cause = .flush then Batch.past x.batch name else []) = [] := by
      rw [List.flatMap_eq_nil_iff]
      intro x hx
      rw [if_neg (hsent x hx).cause_ne]
    rw [observed_of_not_changes (hquiet name), flushed_append hshipments, hnil, hregistry,
      List.append_nil, List.append_nil]
  | flush hquiet hregistry hshipments =>
    -- What the registry remembered is in the batch from now on.
    rw [observed_of_not_changes (hquiet name), flushed_append hshipments, hregistry,
      hsound.past_reset, List.append_nil, List.append_nil, List.flatMap_singleton, if_pos rfl,
      hsound.past_pairs]
  | register m hquiet hregistry hshipments =>
    rw [observed_of_not_changes (hquiet name), flushed_of_same hshipments,
      hsound.past_register? hregistry, List.append_nil]
  | update now key u he hregistry hshipments =>
    subst he
    rw [flushed_of_same hshipments, hsound.past_update hregistry, List.append_assoc]
    rfl
  | merge n he hts hnodup hregistry hshipments =>
    subst he
    have hother := Registry.sound_ofEntries hts hnodup
    have hpast := hsound.past_merge hother ((hsound.merge_eq_ok_iff hother).1 hregistry).2.1 name
    rw [hregistry, Registry.past_ofEntries hnodup] at hpast
    rw [flushed_of_same hshipments, hpast, observed_work, List.append_assoc]

theorem Effect.reports (h : Effect s s' e)
    (hreports : ∀ x ∈ s.shipments, x.cause ≠ .flush → x.IsReport) :
    ∀ x ∈ s'.shipments, x.cause ≠ .flush → x.IsReport := by
  intro x hx hcause
  cases h with
  | rest sent _ _ hshipments hsent =>
    rw [hshipments] at hx
    cases List.mem_append.1 hx with
    | inl hx => apply hreports x hx hcause
    | inr hx => apply hsent x hx
  | flush _ _ hshipments =>
    rw [hshipments] at hx
    cases List.mem_append.1 hx with
    | inl hx => apply hreports x hx hcause
    | inr hx =>
      cases List.mem_singleton.1 hx
      exact absurd rfl hcause
  | register _ _ _ hshipments => exact hreports x (hshipments ▸ hx) hcause
  | update _ _ _ _ _ hshipments => exact hreports x (hshipments ▸ hx) hcause
  | merge _ _ _ _ _ hshipments => exact hreports x (hshipments ▸ hx) hcause

theorem Accounts.step (h : s.Accounts past) (hs : s.step? e = some s') :
    s'.Accounts fun name => past name ++ s.observed name e where
  sound := (effect_of_step h.sound h.sinks hs).sound h.sound
  sinks := by
    rw [sinks_of_step hs]
    exact h.sinks
  flushed_append name := by
    rw [(effect_of_step h.sound h.sinks hs).flushed_append_past h.sound, h.flushed_append]
  closed := closed_of_step h.closed hs
  reports := (effect_of_step h.sound h.sinks hs).reports h.reports

theorem Accounts.run (h : s.Accounts past) {es : List Event} (hs : s.run? es = some s') :
    s'.Accounts fun name => past name ++ s.observations name es := by
  induction es generalizing s past with
  | nil =>
    cases hs
    apply h.congr
    intro name
    apply List.append_nil
  -- The rest of the run adds to what was observed with the first event.
  | cons e es ih =>
    obtain ⟨t, ht, hs⟩ := run?_cons_eq_some_iff.1 hs
    apply (ih (h.step ht) hs).congr
    intro name
    rw [observations, ht, List.append_assoc]

theorem accounts_start {c : Collector} (hsound : c.registry.Sound) (hsinks : c.sinks ≠ 0) :
    (start c).Accounts c.registry.past where
  sound := hsound
  sinks := hsinks
  flushed_append _ := List.nil_append _
  closed h := by cases h <;> contradiction
  reports := nofun

theorem Accounts.flushed_eq (h : s.Accounts past) (hclosed : s.Closed) (name : String) :
    s.flushed name = past name := by
  rw [← h.flushed_append, h.sound.past_eq_nil (h.closed hclosed), List.append_nil]

/--
Once the service is closed, the batches that were flushed have under each name, apart from the last
pair in each, what the registry remembered at the start, what each accepted snapshot had of the
name, and each value that was overwritten in the registry, in the order in which these things
happened. Nothing is left in the registry.
-/
theorem flushed_of_closed {c : Collector} (hregistry : c.registry.Reachable) (hsinks : c.sinks ≠ 0)
    {es : List Event} {s : Thread} (hrun : (start c).run? es = some s)
    (hclosed : s.Closed) :
    (∀ name, s.flushed name = c.registry.past name ++ (start c).observations name es)
      ∧ (∀ name t, s.collector.registry.find? name = some t → t.history = [])
      ∧ s.collector.registry.totalChanges = 0 := by
  -- Without changes nothing is remembered, so everything that was observed was flushed.
  have h := (accounts_start hregistry.sound hsinks).run hrun
  have hzero := h.closed hclosed
  refine ⟨h.flushed_eq hclosed, ?_, ?_⟩
  . intro name t ht
    apply h.sound.history_eq_nil hzero ht
  . ext
    exact hzero

/--
A gauge that is updated again between a snapshot of it and the flush that the snapshot calls for.
-/
theorem flushed_of_closed_queue :
    let as : List Action :=
      [.create 0, .register 0 (.create 0 .integerGauge "queue" ""),
        .update 0 1 "queue" (.value (.integer 5))]
    let payload := Snapshot.encode [⟨⟨"queue", "", .integerGauge 7, 3⟩, 1, [⟨.integer 6, 2⟩]⟩]
    let es : List Event :=
      [.send (.command (.submit payload) false), .send .shutdown, .work, .work,
        .update 4 "queue" (.value (.integer 8)), .work, .work, .work]
    ∃ r s, World.run as 0 = some r
      ∧ (start ⟨1, r, .ofStations [.ofSink .log .wide]⟩).run? es = some s
      ∧ s.point = .closed
      ∧ s.flushed "queue" = ["0", "6", "7"]
      ∧ s.collector.registry.totalChanges = 0 := by
  intro as payload es
  obtain ⟨r, hr⟩ := Option.isSome_iff_exists.1 (by decide : (World.run as 0).isSome)
  have hrun : (World.run as 0).bind (fun r =>
      ((start ⟨1, r, .ofStations [.ofSink .log .wide]⟩).run? es).map fun s => s.point)
      = some .closed := by decide +kernel
  have hpast : (World.run as 0).map (fun r => r.past "queue"
      ++ (start ⟨1, r, .ofStations [.ofSink .log .wide]⟩).observations "queue" es)
      = some ["0", "6", "7"] := by decide +kernel
  rw [hr, Option.bind_some, Option.map_eq_some_iff] at hrun
  rw [hr, Option.map_some, Option.some.injEq] at hpast
  obtain ⟨s, hs, hclosed⟩ := hrun
  have hsinks : Collector.sinks ⟨1, r, .ofStations [.ofSink .log .wide]⟩ ≠ 0 := Nat.one_ne_zero
  obtain ⟨hflushed, -, hzero⟩ := flushed_of_closed ⟨as, 0, hr⟩ hsinks hs (.inl hclosed)
  exact ⟨r, s, hr, hs, hclosed, (hflushed "queue").trans hpast, hzero⟩

end Thread

end Metering
