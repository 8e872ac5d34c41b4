import Metering.Collector.Thread

/-!
This module contains what the service does if nothing happens in between its steps. Command by
command it does what the collector does in one turn, and once it is asked to stop it gets there by
its own steps.
-/

namespace Metering.Thread

/--
Whether a thread becomes another one by steps of the service alone.
-/
def Works (s t : Thread) : Prop :=
  ∃ n, s.run? (List.replicate n .work) = some t

variable {s t u : Thread}

theorem Works.refl (s : Thread) : s.Works s :=
  ⟨0, rfl⟩

theorem Works.head (hs : s.work? = some t) (h : t.Works u) : s.Works u := by
  cases h with
  | intro n hn =>
    exists n + 1
    simp only [List.replicate_succ, run?, step?]
    rw [hs, Option.bind_some, hn]

theorem Works.single (hs : s.work? = some t) : s.Works t :=
  .head hs (.refl t)

theorem Works.trans (h : s.Works t) (h' : t.Works u) : s.Works u := by
  cases h with
  | intro n hn =>
    cases h' with
    | intro m hm =>
      exists n + m
      rw [← List.replicate_append_replicate, run?_append, hn, Option.bind_some, hm]

variable (c : Collector) (qs : List Request) (connected : Bool) (sent : List Shipment)

theorem works_merged :
    Works ⟨c, .merged, qs, connected, sent⟩
      (if c.overdue then after ⟨c, .serving, qs, connected, sent⟩ (c.handle .flush)
        else ⟨c, .serving, qs, connected, sent⟩) := by
  cases hoverdue : c.overdue with
  | false =>
    apply Works.single
    simp [work?, hoverdue]
  | true =>
    apply Works.head (t := ⟨c, .overdue, qs, connected, sent⟩)
    . simp [work?, hoverdue]
    . apply Works.single rfl

theorem works_accept (payload : Bytes) :
    (perform ⟨c, .serving, qs, connected, sent⟩ (.ingest payload)).Works
      (after ⟨c, .serving, qs, connected, sent⟩ (c.handle (.ingest payload))) := by
  cases haccept : c.accept payload with
  | mk result rest =>
    cases result with
    | error e =>
      simp only [perform, Collector.handle, Collector.ingest, haccept, after, List.append_nil]
      exact .refl _
    | ok merged =>
      simp only [perform, Collector.handle, Collector.ingest, haccept]
      -- The threshold is looked at in the next step.
      apply Works.trans (works_merged rest.1 qs connected sent)
      cases rest.1.overdue with
      | false =>
        simp only [after, List.append_nil, Bool.false_eq_true, if_false]
        exact .refl _
      | true => exact .refl _

theorem works_command (command : Command) (abandoned : Bool) :
    Works ⟨c, .serving, .command command abandoned :: qs, connected, sent⟩
      (after ⟨c, .serving, qs, connected, sent⟩ (c.handle command)) := by
  apply Works.head (t := perform ⟨c, .serving, qs, connected, sent⟩ command) rfl
  cases command with
  | flush => exact .refl _
  | systemState state updated => exact .refl _
  | get name => exact .refl _
  | ingest payload => apply works_accept c qs connected sent payload
  | submit payload => apply works_accept c qs connected sent payload

theorem works_serve :
    Works ⟨c, .serving, qs, connected, sent⟩
      ⟨(Service.serve c qs).collector,
        if (Service.serve c qs).behind.isSome then .leaving else .serving,
        (Service.serve c qs).behind.getD [], connected,
        sent ++ (Service.serve c qs).shipments⟩ := by
  induction qs generalizing c sent with
  | nil =>
    simp only [Service.serve, List.append_nil]
    exact .refl _
  | cons q qs ih =>
    cases q with
    | shutdown =>
      simp only [Service.serve, List.append_nil]
      apply Works.single rfl
    -- The batches of the command come before those of the rest of the queue.
    | command command abandoned =>
      apply Works.trans (works_command c qs connected sent command abandoned)
      simp only [Service.serve, ← List.append_assoc]
      apply ih (c.handle command).collector (sent ++ (c.handle command).shipments)

theorem works_finalFlush :
    Works ⟨c, .leaving, qs, connected, sent⟩
      (after ⟨c, .closed, qs, connected, sent⟩ c.finalFlush) := by
  unfold Collector.finalFlush
  cases hpending : c.pending with
  | false =>
    apply Works.single
    simp [work?, hpending, after]
  | true =>
    apply Works.head (t := ⟨c, .pending, qs, connected, sent⟩)
    . simp [work?, hpending]
    . apply Works.single rfl

theorem isSome_behind_serve (h : .shutdown ∈ qs) : (Service.serve c qs).behind.isSome := by
  induction qs generalizing c with
  | nil => cases h
  | cons q qs ih =>
    cases q with
    | shutdown => rfl
    | command command abandoned =>
      apply ih
      cases h with
      | tail _ h => exact h

theorem closes_of_leaving :
    ∃ t, Works ⟨c, .leaving, qs, connected, sent⟩ t ∧ t.Closed :=
  ⟨_, works_finalFlush c qs connected sent, .inl rfl⟩

theorem closes_of_serving (h : connected = false ∨ .shutdown ∈ qs) :
    ∃ t, Works ⟨c, .serving, qs, connected, sent⟩ t ∧ t.Closed := by
  have hserve := works_serve c qs connected sent
  cases hbehind : (Service.serve c qs).behind with
  | some behind =>
    rw [hbehind] at hserve
    obtain ⟨t, ht, hclosed⟩ := closes_of_leaving (Service.serve c qs).collector behind connected
      (sent ++ (Service.serve c qs).shipments)
    exact ⟨t, hserve.trans ht, hclosed⟩
  | none =>
    rw [hbehind] at hserve
    cases h with
    | inr hshutdown =>
      have hsome := isSome_behind_serve c qs hshutdown
      rw [hbehind] at hsome
      cases hsome
    -- The queue is empty, and nobody can send any more.
    | inl hdisconnected =>
      subst hdisconnected
      obtain ⟨t, ht, hclosed⟩ := closes_of_leaving (Service.serve c qs).collector [] false
        (sent ++ (Service.serve c qs).shipments)
      exact ⟨t, hserve.trans (.head rfl ht), hclosed⟩

/--
Whatever it is doing, a service that was told to stop, or that nobody can send anything to, is
closed some steps later.
-/
theorem closes (point : Point) (h : connected = false ∨ .shutdown ∈ qs) :
    ∃ t, Works ⟨c, point, qs, connected, sent⟩ t ∧ t.Closed := by
  cases point with
  | serving => apply closes_of_serving c qs connected sent h
  | merged =>
    have hmerged := works_merged c qs connected sent
    split at hmerged
    . obtain ⟨t, ht, hclosed⟩ := closes_of_serving (c.handle .flush).collector qs connected
        (sent ++ (c.handle .flush).shipments) h
      exact ⟨t, hmerged.trans ht, hclosed⟩
    . obtain ⟨t, ht, hclosed⟩ := closes_of_serving c qs connected sent h
      exact ⟨t, hmerged.trans ht, hclosed⟩
  | overdue =>
    obtain ⟨t, ht, hclosed⟩ := closes_of_serving (c.handle .flush).collector qs connected
      (sent ++ (c.handle .flush).shipments) h
    exact ⟨t, .head rfl ht, hclosed⟩
  | leaving => apply closes_of_leaving c qs connected sent
  | pending => exact ⟨_, .single rfl, .inl rfl⟩
  | closed => exact ⟨_, .refl _, .inl rfl⟩
  | returned => exact ⟨_, .refl _, .inr rfl⟩

end Metering.Thread
