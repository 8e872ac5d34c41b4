import Mathlib.Data.List.Perm.Basic
import Metering.Proofs.Tracked.Sound

/-!
This module contains which of the records of a gauge are sent when it is updated and merged. An
update moves the record that it replaces to the history. A merge does not, so what the metric was by
then is sent to nobody.
-/

namespace Metering.Tracked

/--
What becomes of a metric by updates and merges, with the records that were observed meanwhile, those
of the metrics that were merged into it included, and the ones that merges replaced.
-/
inductive Becomes (t : Tracked) : Tracked → List Record → List Record → Prop where
  | same : Becomes t t [] []
  | apply {u u' : Tracked} {observed replaced : List Record} {now : Int64} {c : Update}
    (h : Becomes t u observed replaced) (happly : u.apply now c = .ok u') :
    Becomes t u' (observed ++ [u'.current.record]) replaced
  | merge {u u' other : Tracked} {observed replaced : List Record}
    (h : Becomes t u observed replaced) (hother : other.Reachable)
    (hmerge : u.merge other = .ok u') :
    Becomes t u' (observed ++ other.records) (replaced ++ [u.current.record])

variable {t u : Tracked} {observed replaced : List Record}

theorem Becomes.kind_eq (h : t.Becomes u observed replaced) : u.kind = t.kind := by
  induction h with
  | same => rfl
  | apply _ happly ih =>
    obtain ⟨m, hm, rfl⟩ := apply_eq_ok_iff.1 happly
    exact (same_of_updated hm).2.trans ih
  | merge _ _ hmerge ih =>
    obtain ⟨-, hkind, rfl⟩ := merge_eq_ok_iff.1 hmerge
    exact hkind.trans ih

theorem perm_append_right_comm {α : Type} (as bs cs : List α) :
    (as ++ bs ++ cs).Perm (as ++ cs ++ bs) := by
  rw [List.append_assoc, List.append_assoc]
  apply List.perm_append_comm.append_left

theorem perm_records_join {other : Tracked} (hother : other.Sound) (hkind : other.kind = t.kind) :
    ((t.join other).records ++ [t.current.record]).Perm (t.records ++ other.records) := by
  rw [hother.records_join hkind]
  apply perm_append_right_comm

theorem Becomes.perm (h : t.Becomes u observed replaced) (hkeeps : t.kind.keepsHistory) :
    (u.records ++ replaced).Perm (t.records ++ observed) := by
  induction h with
  | same => rfl
  | @apply u u' observed replaced _ _ h happly ih =>
    obtain ⟨m, hm, rfl⟩ := apply_eq_ok_iff.1 happly
    rw [records_advance (h.kind_eq ▸ hkeeps) (same_of_updated hm).2]
    calc
      (u.records ++ [m.record] ++ replaced).Perm (u.records ++ replaced ++ [m.record]) :=
        perm_append_right_comm ..
      _ |>.Perm (t.records ++ observed ++ [m.record]) := ih.append_right _
      _ = t.records ++ (observed ++ [m.record]) := List.append_assoc ..
  | @merge u u' other observed replaced h hother hmerge ih =>
    obtain ⟨-, hkind, rfl⟩ := merge_eq_ok_iff.1 hmerge
    -- The record of `u` passes from the ones that are sent to the ones that are replaced.
    calc
      (u.join other).records ++ (replaced ++ [u.current.record])
      _ |>.Perm ((u.join other).records ++ [u.current.record] ++ replaced) := by
        rw [← List.append_assoc]
        apply perm_append_right_comm
      _ |>.Perm (u.records ++ other.records ++ replaced) :=
        (perm_records_join hother.sound hkind).append_right _
      _ |>.Perm (u.records ++ replaced ++ other.records) := perm_append_right_comm ..
      _ |>.Perm (t.records ++ observed ++ other.records) := ih.append_right _
      _ = t.records ++ (observed ++ other.records) := List.append_assoc ..

/--
A gauge sends the records that it started with and those that were observed since, but for the ones
that a merge replaced. The values of these are the only ones that are sent less often than they were
observed.
-/
theorem sent_exactly (hkind : t.kind = .integerGauge ∨ t.kind = .doubleGauge)
    (h : t.Becomes u observed replaced) :
    (u.history ++ [u.current.record] ++ replaced).Perm
        (t.history ++ [t.current.record] ++ observed)
      ∧ u.pairs.map Prod.snd = (u.history ++ [u.current.record]).map (·.value.display)
      ∧ ∀ text,
        ((t.history ++ [t.current.record] ++ observed).map (·.value.display)).count text
            ≤ (u.pairs.map Prod.snd).count text
          ↔ text ∉ replaced.map (·.value.display) := by
  have hperm : (u.records ++ replaced).Perm (t.records ++ observed) :=
    h.perm (Kind.keepsHistory_iff.2 hkind)
  have hsent : u.pairs.map Prod.snd = u.records.map (·.value.display) := by
    rw [pairs_eq_map, List.map_map]
    rfl
  refine ⟨hperm, hsent, ?_⟩
  intro text
  have hcount := (hperm.map (·.value.display)).count_eq text
  rw [List.map_append, List.count_append, ← hsent] at hcount
  rw [← List.count_eq_zero]
  change (List.map _ (t.records ++ observed)).count text ≤ _ ↔ _
  omega

/--
A gauge that is set, merged with another one and set again.
-/
theorem sent_exactly_queue :
    let t := ofMetric (.create 0 .integerGauge "queue" "")
    let observed : List Record :=
      [⟨.integer 5, 1⟩, ⟨.integer 0, 0⟩, ⟨.integer 7, 2⟩, ⟨.integer 8, 3⟩]
    ∃ u, t.Becomes u observed [⟨.integer 5, 1⟩]
      ∧ u.pairs.map Prod.snd = ["0", "0", "7", "8"]
      ∧ ((t.records ++ observed).map (·.value.display)).count "7"
        ≤ (u.pairs.map Prod.snd).count "7" := by
  intro t observed
  let set : Tracked := ⟨⟨"queue", "", .integerGauge 5, 1⟩, 1, [⟨.integer 0, 0⟩]⟩
  let other : Tracked := ⟨⟨"queue", "", .integerGauge 7, 2⟩, 1, [⟨.integer 0, 0⟩]⟩
  let merged : Tracked :=
    ⟨⟨"queue", "", .integerGauge 7, 2⟩, 2, [⟨.integer 0, 0⟩, ⟨.integer 0, 0⟩]⟩
  let u : Tracked :=
    ⟨⟨"queue", "", .integerGauge 8, 3⟩, 3, [⟨.integer 0, 0⟩, ⟨.integer 0, 0⟩, ⟨.integer 7, 2⟩]⟩
  have hother : t.apply 2 (.value (.integer 7)) = .ok other := rfl
  have hset : t.apply 1 (.value (.integer 5)) = .ok set := rfl
  have hmerge : set.merge other = .ok merged := rfl
  have hagain : merged.apply 3 (.value (.integer 8)) = .ok u := rfl
  have h : t.Becomes u observed [⟨.integer 5, 1⟩] :=
    .apply (.merge (.apply .same hset) (.apply (.ofMetric _) hother) hmerge) hagain
  obtain ⟨-, hsent, hcount⟩ := sent_exactly (.inl rfl) h
  refine ⟨u, h, hsent.trans ?_, (hcount "7").2 ?_⟩
  . decide +kernel
  . decide +kernel

/--
The value that a gauge was set to is not sent when another gauge was merged into it by then.
-/
theorem set_before_merge_not_sent :
    let t := ofMetric (.create 1000 .integerGauge "queue" "")
    let set : Tracked := ⟨⟨"queue", "", .integerGauge 5, 1000⟩, 1, [⟨.integer 0, 1000⟩]⟩
    let other : Tracked := ⟨⟨"queue", "", .integerGauge 7, 1000⟩, 1, [⟨.integer 0, 1000⟩]⟩
    t.apply 1000 (.value (.integer 5)) = .ok set
      ∧ t.apply 1000 (.value (.integer 7)) = .ok other
      ∧ ∃ u, set.merge other = .ok u
        ∧ t.Becomes u ([set.current.record] ++ other.records) [set.current.record]
        ∧ set.current.value.display = "5"
        ∧ u.pairs.map Prod.snd = ["0", "0", "7"] := by
  intro t set other
  have hset : t.apply 1000 (.value (.integer 5)) = .ok set := rfl
  have hother : t.apply 1000 (.value (.integer 7)) = .ok other := rfl
  have hmerge : set.merge other = .ok (set.join other) := rfl
  refine ⟨hset, hother, set.join other, hmerge, ?_, by decide +kernel, by decide +kernel⟩
  exact .merge (.apply .same hset) (.apply (.ofMetric _) hother) hmerge

end Metering.Tracked
