import Metering.Proofs.Collector.Basic
import Metering.Proofs.Registry.Count

/-!
This module contains when the collector flushes. After a snapshot it compares its changes with the
threshold, and although each of the counts behind them may have stopped, it decides as if none of
them ever did. Only a threshold at which counts stop is never exceeded.
-/

namespace Metering.Collector

/--
What an accepted snapshot adds to the changes is the sum of what its entries say.
-/
theorem accept_ok {c c' : Collector} (h : c.registry.Sound) {payload : Bytes} {n : Nat}
    {lines : List Line} (haccept : c.accept payload = (.ok n, c', lines)) :
    ∃ es, Snapshot.entries? payload = some es ∧ n = es.length ∧ c'.threshold = c.threshold
      ∧ c'.registry.totalChanges
        = c.registry.totalChanges + Tally.sum (es.map Snapshot.Entry.changes) := by
  cases c.accept_cases h payload with
  | inl hrefused =>
    obtain ⟨e, _, hrefused⟩ := hrefused
    rw [haccept] at hrefused
    cases hrefused
  | inr haccepted =>
    obtain ⟨ts, m, r, _, hdec, -, hmerge, haccepted⟩ := haccepted
    rw [haccept] at haccepted
    cases haccepted
    obtain ⟨es, hes, hcheck⟩ := Snapshot.decode_eq_ok_iff.1 hdec
    obtain ⟨hts, hnodup⟩ := Snapshot.sound_of_decode hdec
    have hother := Registry.sound_ofEntries hts hnodup
    have hchanges := Snapshot.changes_of_checkEntries hcheck
    refine ⟨es, hes, ?_, rfl, ?_⟩
    . have hlength := congrArg List.length hchanges
      rw [List.length_map, List.length_map] at hlength
      rw [((h.merge_eq_ok_iff hother).1 hmerge).1, Registry.size_ofEntries hts hnodup, hlength]
    . have htotal := h.totalChanges_merge hother (congrArg Prod.snd hmerge)
      rw [hmerge] at htotal
      rw [htotal, hother.totalChanges_eq, Registry.entries_ofEntries hnodup, hchanges]

theorem ingest_ok {c : Collector} (h : c.registry.Sound) {payload : Bytes} {report : IngestReport}
    (hreport : (c.ingest payload).1 = .ok report) :
    ∃ es total, Snapshot.entries? payload = some es
      ∧ total = c.registry.totalChanges + Tally.sum (es.map Snapshot.Entry.changes)
      ∧ report = ⟨es.length, c.threshold.toNat < total.toNat⟩
      ∧ (c.ingest payload).2.1.registry.totalChanges
        = if c.threshold.toNat < total.toNat then 0 else total := by
  unfold ingest at hreport ⊢
  split at hreport
  . cases hreport
  . next n c' lines haccept =>
    obtain ⟨es, hes, rfl, hthreshold, htotal⟩ := accept_ok h haccept
    have hoverdue : c'.overdue = decide (c.threshold.toNat < c'.registry.totalChanges.toNat) := by
      rw [← hthreshold]
      rfl
    exists es, c'.registry.totalChanges
    cases hthis : c'.overdue with
    | false =>
      have hle : ¬c.threshold.toNat < c'.registry.totalChanges.toNat := by
        simpa [hoverdue] using hthis
      rw [hthis] at hreport
      cases hreport
      exact ⟨hes, htotal, by simp [hle], by simp [hle]⟩
    | true =>
      have hlt : c.threshold.toNat < c'.registry.totalChanges.toNat := by
        simpa [hoverdue] using hthis
      rw [hthis] at hreport
      cases hreport
      simp only [if_true, registry_flush, Registry.totalChanges_reset]
      exact ⟨hes, htotal, by simp [hlt], by simp [hlt]⟩

/--
The changes of a registry are the sum of those of its metrics, cut off where a count stops, in
whatever order the metrics are visited, and merging adds them up in the same way. So whether a
snapshot that is accepted calls for a flush is told exactly by the changes before and those that the
snapshot speaks of, and the changes never exceed the threshold afterwards. Unless the threshold is
the number at which counts stop, the decision is that of counts which never do.
-/
theorem flush_decided_exactly {as : List Action} {i : Nat} {c : Collector}
    (hregistry : World.run as i = some c.registry) :
    (∀ walk : List (String × Tracked), walk.Perm c.registry.map.toList →
        (Tally.sum (walk.map fun (_, t) => t.changes)).toNat
          = min (c.registry.entries.map fun t => t.changes.toNat).sum (2 ^ 64 - 1))
      ∧ c.registry.totalChanges.toNat
        = min (c.registry.entries.map fun t => t.changes.toNat).sum (2 ^ 64 - 1)
      ∧ c.registry.totalChanges.toNat = min (World.counted as i) (2 ^ 64 - 1)
      ∧ (∀ other n, other.Reachable → (c.registry.merge other).2 = .ok n →
        (c.registry.merge other).1.totalChanges.toNat
          = min (c.registry.totalChanges.toNat + other.totalChanges.toNat) (2 ^ 64 - 1))
      ∧ ∀ payload report, (c.ingest payload).1 = .ok report →
        ∃ es, Snapshot.entries? payload = some es ∧
          let told := (es.map fun e => e.changes.toNat).sum
          let total := min (c.registry.totalChanges.toNat + told) (2 ^ 64 - 1)
          let after := (c.ingest payload).2.1.registry.totalChanges.toNat
          report = ⟨es.length, c.threshold.toNat < total⟩
            ∧ after = (if report.flushed then 0 else total)
            ∧ after ≤ c.threshold.toNat
            ∧ (c.threshold.toNat < 2 ^ 64 - 1 →
              (report.flushed ↔ c.threshold.toNat < World.counted as i + told)) := by
  have h := World.sound_run as i _ hregistry
  have htotal := h.toNat_totalChanges
  have hcounted : c.registry.totalChanges.toNat = min (World.counted as i) Tally.max := by
    rw [World.counts_run as i _ hregistry, Tally.toNat_ofNat]
  refine ⟨?_, htotal, hcounted, ?_, ?_⟩
  . intro walk hwalk
    rw [Registry.sum_of_perm_toList hwalk]
    exact htotal
  . intro other n hother hok
    rw [h.totalChanges_merge hother.sound hok]
    rfl
  . intro payload report hreport
    obtain ⟨es, sum, hes, hsum, hflushed, hafter⟩ := ingest_ok h hreport
    refine ⟨es, hes, ?_⟩
    intro told total after
    have hthis : sum.toNat = total := by
      have htold : told = ((es.map Snapshot.Entry.changes).map Tally.toNat).sum := by
        rw [List.map_map]
        rfl
      have hmax : Tally.max = 2 ^ 64 - 1 := rfl
      rw [hsum, Tally.toNat_add, Tally.toNat_sum, ← htold]
      omega
    have hrest : after = if c.threshold.toNat < total then 0 else total := by
      have hzero : (0 : Tally).toNat = 0 := rfl
      simp only [after, hafter, apply_ite Tally.toNat, hzero, hthis]
    rw [hthis] at hflushed
    subst hflushed
    refine ⟨rfl, by simpa using hrest, ?_, ?_⟩
    . rw [hrest]
      split <;> omega
    . intro hmax
      have hbound : Tally.max = 2 ^ 64 - 1 := rfl
      simp only [total, hcounted, decide_eq_true_eq]
      omega

/--
A snapshot that says that its gauge was changed as often as can be counted, for a registry with one
more change.
-/
theorem flush_decided_exactly_queue :
    let as : List Action :=
      [.create 0, .register 0 (.create 0 .integerGauge "queue" ""),
        .update 0 1 "queue" (.value (.integer 5))]
    let payload := Snapshot.encode [⟨⟨"queue", "", .integerGauge 7, 3⟩, .ofNat (2 ^ 64 - 1), []⟩]
    ∃ r, World.run as 0 = some r ∧
      let c : Collector := ⟨.ofNat (2 ^ 64 - 2), r, .ofStations []⟩
      (c.ingest payload).1 = .ok ⟨1, true⟩
        ∧ (c.ingest payload).2.1.registry.totalChanges.toNat = 0
        ∧ r.totalChanges.toNat = 1
        ∧ World.counted as 0 = 1 := by
  intro as payload
  obtain ⟨r, hr⟩ := Option.isSome_iff_exists.1 (by decide : (World.run as 0).isSome)
  have hingest : (World.run as 0).map (fun r =>
      (Collector.ingest ⟨.ofNat (2 ^ 64 - 2), r, .ofStations []⟩ payload).1)
      = some (.ok ⟨1, true⟩) := by decide +kernel
  have hcounted : World.counted as 0 = 1 := by decide +kernel
  rw [hr, Option.map_some, Option.some.injEq] at hingest
  refine ⟨r, hr, ?_⟩
  intro c
  obtain ⟨-, -, htotal, -, hsnapshot⟩ := flush_decided_exactly (c := c) hr
  obtain ⟨es, -, -, hafter, -, -⟩ := hsnapshot payload _ hingest
  refine ⟨hingest, hafter, ?_, hcounted⟩
  rw [hcounted] at htotal
  exact htotal

end Metering.Collector
