import Metering.Collector.Basic
import Metering.Proofs.Registry.Merge

/-!
This module contains what the collector does with its registry when it takes a snapshot and when it
flushes.
-/

namespace Metering.Collector

theorem ship_of_sinks {c : Collector} (h : c.sinks ≠ 0) (cause : Cause) (b : Batch) :
    c.ship cause b = ({ c with outbox := c.outbox.tidy.dispatch b }, [⟨cause, b⟩], []) := by
  unfold ship
  rw [if_neg h]

theorem ship_of_no_sinks {c : Collector} (h : c.sinks = 0) (cause : Cause) (b : Batch) :
    (c.ship cause b).1 = { c with outbox := c.outbox.tidy } ∧ (c.ship cause b).2.1 = [] := by
  unfold ship
  rw [if_pos h]
  exact ⟨rfl, rfl⟩

theorem shipments_ship (c : Collector) (cause : Cause) (b : Batch) :
    (c.ship cause b).2.1 = if c.sinks = 0 then [] else [⟨cause, b⟩] := by
  unfold ship
  split <;> rfl

theorem registry_ship (c : Collector) (cause : Cause) (b : Batch) :
    (c.ship cause b).1.registry = c.registry := by
  unfold ship
  split <;> rfl

theorem registry_flush (c : Collector) : c.flush.2.1.registry = c.registry.reset :=
  registry_ship { c with registry := c.registry.reset } .flush c.registry.pairs

theorem sinks_ship (c : Collector) (cause : Cause) (b : Batch) :
    (c.ship cause b).1.sinks = c.sinks := by
  unfold ship
  split <;> rfl

theorem sinks_flush (c : Collector) : c.flush.2.1.sinks = c.sinks :=
  sinks_ship { c with registry := c.registry.reset } .flush c.registry.pairs

theorem outbox_accept (c : Collector) (payload : Bytes) :
    (c.accept payload).2.1.outbox = c.outbox := by
  unfold accept
  split
  . rfl
  . dsimp only
    split <;> rfl

theorem sinks_accept (c : Collector) (payload : Bytes) :
    (c.accept payload).2.1.sinks = c.sinks := by
  rw [sinks, outbox_accept, sinks]

/--
A snapshot is refused without a trace, or its metrics are merged.
-/
theorem accept_cases {c : Collector} (h : c.registry.Sound) (payload : Bytes) :
    (∃ e lines, c.accept payload = (.error e, c, lines))
      ∨ ∃ ts n r lines, Snapshot.decode payload = .ok ts ∧ r.Sound
        ∧ c.registry.merge (.ofEntries ts) = (r, .ok n)
        ∧ c.accept payload = (.ok n, { c with registry := r }, lines) := by
  unfold accept
  cases hother : Registry.deserialize payload with
  | error e =>
    left
    exact ⟨_, _, rfl⟩
  | ok other =>
    -- A snapshot is read as a registry, whose entries are those that were decoded.
    have hsound := Registry.sound_of_deserialize hother
    obtain ⟨ts, hdec, rfl⟩ := Registry.deserialize_eq_ok_iff.1 hother
    dsimp only
    rw [hsound.absorb_eq_merge]
    cases hmerge : c.registry.merge (.ofEntries ts) with
    | mk r result =>
      cases result with
      | ok n =>
        right
        have hr := (h.merge hsound).1
        rw [hmerge] at hr
        exact ⟨ts, n, r, _, hdec, hr, hmerge, rfl⟩
      | error e =>
        left
        have hsame := h.merge_of_error hsound (congrArg Prod.snd hmerge)
        rw [hmerge, Prod.mk.injEq] at hsame
        rw [hsame.1]
        exact ⟨_, _, rfl⟩

end Metering.Collector
