import Mathlib.Data.List.Forall2
import Metering.Proofs.Registry.Past
import Metering.Proofs.Registry.Total

/-!
This module contains what a flush takes out of a registry and what it leaves behind. The values are
collected along the order of the names and forgotten all over the map, so that nothing is forgotten
without having been collected is due to the agreement of the two.
-/

namespace Metering

/-!
## Collecting the values
-/

theorem Tracked.length_pairs (t : Tracked) : t.pairs.length = t.history.length + 1 := by
  simp [pairs]

theorem Tracked.pairs_of_history_eq_nil {t : Tracked} (h : t.history = []) :
    t.pairs = [(t.name, t.current.value.display)] := by
  rw [pairs, h, List.map_nil, List.nil_append]

theorem Tracked.length_flatMap_pairs (ts : List Tracked) :
    (ts.flatMap Tracked.pairs).length
      = ts.length + (ts.map fun t => t.history.length).sum := by
  induction ts with
  | nil => rfl
  | cons t ts ih =>
    rw [List.flatMap_cons, List.length_append, ih, t.length_pairs, List.length_cons, List.map_cons,
      List.sum_cons]
    omega

namespace Registry

/--
Only the metrics that keep their history have a share in the former values.
-/
theorem sum_length_history {ts : List Tracked}
    (hnil : ∀ t ∈ ts, ¬t.kind.keepsHistory → t.history = []) :
    (ts.map fun t => t.history.length).sum
      = ((ts.filter (·.kind.keepsHistory)).map fun t => t.history.length).sum := by
  induction ts with
  | nil => rfl
  | cons t ts ih =>
    rw [List.forall_mem_cons] at hnil
    rw [List.map_cons, List.sum_cons, ih hnil.2, List.filter_cons]
    split
    . rw [List.map_cons, List.sum_cons]
    . next hkeeps => rw [hnil.1 hkeeps, List.length_nil, Nat.zero_add]

theorem forall₂_filterMap {α β : Type} {f : α → Option β} {as : List α}
    (h : ∀ a ∈ as, ∃ b, f a = some b) :
    List.Forall₂ (fun a b => f a = some b) as (as.filterMap f) := by
  induction as with
  | nil => exact .nil
  | cons a as ih =>
    rw [List.forall_mem_cons] at h
    obtain ⟨b, hb⟩ := h.1
    rw [List.filterMap_cons_some hb]
    exact .cons hb (ih h.2)

variable {r : Registry}

theorem Sound.forall₂_entries (h : r.Sound) :
    List.Forall₂ (fun name t => r.find? name = some t) r.names r.entries :=
  forall₂_filterMap fun _ hname => h.mem_names_iff_find?.1 hname

theorem Sound.length_pairs (h : r.Sound) :
    r.pairs.length = r.size + ((r.entries.filter (·.kind.keepsHistory)).map
      fun t => t.history.length).sum := by
  unfold pairs
  rw [Tracked.length_flatMap_pairs, h.length_entries, h.size_eq, sum_length_history]
  intro t ht
  exact (h.sound_of_mem_entries ht).history_eq_nil_of_kind

/-!
## Forgetting them
-/

theorem entries_reset (r : Registry) : r.reset.entries = r.entries.map Tracked.reset := by
  have hlookup : r.reset.find? = fun name => (r.find? name).map Tracked.reset :=
    funext r.find?_reset
  rw [entries, hlookup, ← List.map_filterMap]
  rfl

theorem pairs_reset (r : Registry) :
    r.reset.pairs = r.entries.map fun t => (t.name, t.current.value.display) := by
  unfold pairs
  rw [entries_reset, List.flatMap_map, List.map_eq_flatMap]
  rfl

theorem serialize_reset (r : Registry) : r.reset.serialize = Snapshot.encode [] := by
  unfold serialize changed
  rw [entries_reset, List.filter_map]
  -- No metric is left that counts as changed.
  have hnone : r.entries.filter ((fun t => decide (0 < t.changes.toNat)) ∘ Tracked.reset) = [] := by
    rw [List.filter_eq_nil_iff]
    intro t _
    exact of_decide_eq_false rfl
  rw [hnone, List.map_nil]

/--
A flush sends, in the order of the names, the former values of each metric from the oldest on and
then its present value, which is all that metrics without a history have. It leaves nothing behind
but the names and the present metrics: there are no changes to be sent or counted, and another flush
sends the last value of each metric again.
-/
theorem drained_completely (hr : r.Reachable) :
    r.drain.1 = r.pairs
      ∧ (∀ name, name ∈ r.names ↔ ∃ t, r.find? name = some t)
      ∧ (∃ parts, r.drain.1 = parts.flatten
        ∧ List.Forall₂ (fun name part => ∃ t, r.find? name = some t
            ∧ part = t.history.map (fun old => (name, old.value.display))
              ++ [(name, t.current.value.display)]
            ∧ (t.kind = .counter ∨ t.kind = .state → part = [(name, t.current.value.display)]))
          r.names parts)
      ∧ r.drain.1.length = r.size
        + ((r.entries.filter fun t => t.kind = .integerGauge ∨ t.kind = .doubleGauge).map
            fun t => t.history.length).sum
      ∧ r.drain.2.names = r.names
      ∧ (∀ name, r.drain.2.get? name = r.get? name)
      ∧ (∀ name t, r.drain.2.find? name = some t → t.changes = 0 ∧ t.history = [])
      ∧ r.drain.2.totalChanges = 0
      ∧ (∀ threshold, r.drain.2.flushReady threshold = false)
      ∧ r.drain.2.serialize = Bytes.ofString "[]"
      ∧ List.Forall₂ (fun name pair => (∃ m, r.get? name = some m ∧ pair = (name, m.value.display))
          ∧ (r.drain.1.filter (·.1 = name)).getLast? = some pair)
        r.names r.drain.2.drain.1 := by
  have h := hr.sound
  have htotal : r.drain.2.totalChanges = 0 := r.totalChanges_reset
  refine ⟨rfl, fun _ => h.mem_names_iff_find?, ⟨r.entries.map Tracked.pairs, ?_, ?_⟩, ?_, rfl, ?_,
    ?_, htotal, ?_, ?_, ?_⟩
  . exact List.flatMap_def
  . rw [List.forall₂_map_right_iff]
    apply h.forall₂_entries.imp
    intro name t ht
    have hname := h.name_eq name t ht
    refine ⟨t, ht, by rw [← hname]; rfl, ?_⟩
    intro hkind
    rw [← hname]
    apply Tracked.pairs_of_history_eq_nil
    exact (h.sound name t ht).history_eq_nil_of_kind (Kind.not_keepsHistory_iff.2 hkind)
  . simp only [← Kind.keepsHistory_iff, Bool.decide_eq_true]
    exact h.length_pairs
  . intro name
    change (r.reset.find? name).map Tracked.current = (r.find? name).map Tracked.current
    rw [find?_reset, Option.map_map]
    rfl
  . intro name t ht
    obtain ⟨s, -, rfl⟩ := Option.map_eq_some_iff.1 ((r.find?_reset name).symm.trans ht)
    exact ⟨rfl, rfl⟩
  . intro threshold
    unfold flushReady
    rw [htotal]
    simp
  . exact r.serialize_reset
  . have hpairs : r.drain.2.drain.1 = r.entries.map fun t => (t.name, t.current.value.display) :=
      r.pairs_reset
    rw [hpairs, List.forall₂_map_right_iff]
    apply h.forall₂_entries.imp
    intro name t ht
    rw [h.name_eq name t ht, h.filter_drain ht, Tracked.records, List.map_append,
      List.map_singleton, List.getLast?_append, List.getLast?_singleton, Option.some_or]
    exact ⟨⟨t.current, by rw [get?, ht, Option.map_some], rfl⟩, rfl⟩

/--
A gauge that was read from a snapshot with a history of its own and then updated, and a counter.
-/
theorem drained_completely_queue :
    let payload := Bytes.ofString "[[\"integer_gauge\",\"queue\",\"\",5,7,9,[[3,6],[4,6]]]]"
    let as : List Action :=
      [.deserialize 0 payload, .register 0 (.create 0 .counter "tasks" ""),
        .update 0 8 "queue" (.value (.integer 6))]
    ∃ r, World.run as 0 = some r
      ∧ r.drain.1 = [("queue", "3"), ("queue", "4"), ("queue", "5"), ("queue", "6"), ("tasks", "0")]
      ∧ r.drain.2.drain.1.length = 2
      ∧ r.drain.2.totalChanges = 0
      ∧ r.drain.2.serialize = Bytes.ofString "[]" := by
  intro payload as
  have hpairs : (World.run as 0).map (·.drain.1)
      = some [("queue", "3"), ("queue", "4"), ("queue", "5"), ("queue", "6"), ("tasks", "0")] := by
    decide +kernel
  have hnames : (World.run as 0).map names = some ["queue", "tasks"] := by decide +kernel
  obtain ⟨r, hr⟩ := Option.isSome_iff_exists.1 (by decide +kernel : (World.run as 0).isSome)
  rw [hr, Option.map_some, Option.some.injEq] at hpairs hnames
  obtain ⟨-, -, -, -, -, -, -, htotal, -, hserialize, hsecond⟩ := drained_completely ⟨as, 0, hr⟩
  refine ⟨r, hr, hpairs, ?_, htotal, hserialize⟩
  rw [← hsecond.length_eq, hnames]
  rfl

end Registry

end Metering
