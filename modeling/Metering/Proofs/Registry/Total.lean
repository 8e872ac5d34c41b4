import Mathlib.Algebra.GroupWithZero.Nat
import Metering.Proofs.Registry.Merge

/-!
This module contains how many changes the metrics of a registry have together. Counting them stops
at the same greatest value as counting those of one metric, so it does not matter in which order
they are counted, and merging registries adds up their counts.
-/

namespace Metering

theorem Tally.toNat_sum (ts : List Tally) : (sum ts).toNat = min (ts.map toNat).sum max := by
  induction ts with
  | nil => rfl
  | cons t ts ih =>
    simp only [sum_cons, toNat_add, ih, List.map_cons, List.sum_cons]
    omega

namespace Registry

/--
The changes of all metrics together, counted without a bound.
-/
def exactChanges (r : Registry) : Nat :=
  (r.entries.map fun t => t.changes.toNat).sum

theorem sum_of_perm_toList {r : Registry} {walk : List (String × Tracked)}
    (h : walk.Perm r.map.toList) :
    Tally.sum (walk.map fun (_, t) => t.changes) = r.totalChanges :=
  Tally.sum_perm (h.map _)

theorem Sound.totalChanges_eq {r : Registry} (h : r.Sound) :
    r.totalChanges = Tally.sum (r.entries.map Tracked.changes) := by
  unfold totalChanges
  rw [← Tally.sum_perm (h.perm_entries.map _), List.map_map]
  rfl

theorem Sound.toNat_totalChanges {r : Registry} (h : r.Sound) :
    r.totalChanges.toNat = min r.exactChanges Tally.max := by
  rw [h.totalChanges_eq, Tally.toNat_sum, List.map_map]
  rfl

theorem totalChanges_eq_zero_iff {r : Registry} :
    r.totalChanges.toNat = 0 ↔ ∀ name t, r.find? name = some t → t.changes.toNat = 0 := by
  unfold totalChanges find?
  rw [Tally.toNat_sum_eq_zero_iff]
  simp only [List.mem_map, Prod.exists, Std.ExtTreeMap.mem_toList_iff_getElem?_eq_some]
  constructor
  . intro h name t ht
    exact h _ ⟨name, t, ht, rfl⟩
  . rintro h _ ⟨name, t, ht, rfl⟩
    apply h name t ht

theorem totalChanges_reset (r : Registry) : r.reset.totalChanges = 0 := by
  ext
  rw [Tally.toNat_zero, totalChanges_eq_zero_iff]
  intro name t ht
  rw [find?_reset, Option.map_eq_some_iff] at ht
  obtain ⟨s, -, rfl⟩ := ht
  rfl

theorem Sound.history_eq_nil {r : Registry} (h : r.Sound) (hzero : r.totalChanges.toNat = 0)
    {name : String} {t : Tracked} (ht : r.find? name = some t) : t.history = [] := by
  apply (h.sound name t ht).history_eq_nil_of_changes
  apply totalChanges_eq_zero_iff.1 hzero name t ht

/-!
## Single metrics
-/

theorem Sound.totalChanges_insert {r : Registry} (h : r.Sound) {t : Tracked} (ht : t.Sound)
    (hnew : t.name ∉ r.names) : (r.insert t).totalChanges = r.totalChanges + t.changes := by
  rw [(h.insert ht hnew).totalChanges_eq, h.totalChanges_eq, entries_insert hnew]
  simp [Tally.add_zero]

/--
Putting a metric in the place of another one leaves all the others where they are.
-/
theorem Sound.exists_entries_put {r : Registry} (h : r.Sound) {name : String} {s : Tracked}
    (hs : r.find? name = some s) :
    ∃ before after, r.entries = before ++ s :: after
      ∧ ∀ t, (r.put name t).entries = before ++ t :: after := by
  obtain ⟨before, after, horder⟩ := List.append_of_mem (h.mem_names_iff_find?.2 ⟨s, hs⟩)
  have hnodup := h.nodup_names
  rw [horder, List.nodup_middle, List.nodup_cons, List.mem_append, not_or] at hnodup
  -- The name stands only once in the order, so the metrics under the other names stay.
  have hother : ∀ t, ∀ ns : List String, name ∉ ns →
      ns.filterMap (r.put name t).find? = ns.filterMap r.find? := by
    intro t ns hns
    apply List.filterMap_congr
    intro n hn
    rw [find?_put, if_neg]
    rintro rfl
    exact hns hn
  refine ⟨before.filterMap r.find?, after.filterMap r.find?, ?_, ?_⟩
  . have hentries : r.entries = r.names.filterMap r.find? := rfl
    rw [hentries, horder, List.filterMap_append, List.filterMap_cons_some hs]
  . intro t
    have hentries : (r.put name t).entries = r.names.filterMap (r.put name t).find? := rfl
    have hself : (r.put name t).find? name = some t := by rw [find?_put, if_pos rfl]
    rw [hentries, horder, List.filterMap_append, List.filterMap_cons_some hself,
      hother t before hnodup.1.1, hother t after hnodup.1.2]

theorem Sound.totalChanges_put {r : Registry} (h : r.Sound) {name : String} {s t : Tracked}
    (hs : r.find? name = some s) (ht : t.Sound) (hname : t.name = name) {d : Tally}
    (hchanges : t.changes = s.changes + d) :
    (r.put name t).totalChanges = r.totalChanges + d := by
  obtain ⟨before, after, hentries, hput⟩ := h.exists_entries_put hs
  rw [(h.put hs ht hname).totalChanges_eq, h.totalChanges_eq, hput, hentries]
  simp only [List.map_append, List.map_cons, Tally.sum_append, Tally.sum_cons, hchanges]
  simp only [Tally.add_assoc, Tally.add_comm d]

theorem Sound.totalChanges_register? {r r' : Registry} (h : r.Sound) {m : Metric}
    (hr : r.register? m = some r') : r'.totalChanges = r.totalChanges := by
  obtain ⟨hfree, rfl⟩ := register?_eq_some_iff.1 hr
  have hnew : (Tracked.ofMetric m).name ∉ r.names := h.find?_eq_none_iff.1 hfree
  rw [h.totalChanges_insert (Tracked.sound_ofMetric m) hnew]
  apply Tally.add_zero

theorem Sound.totalChanges_update {r r' : Registry} (h : r.Sound) {now : Int64} {name : String}
    {u : Update} (hr : r.update now name u = .ok r') :
    r'.totalChanges = r.totalChanges + 1 := by
  obtain ⟨t, t', ht, happly, rfl⟩ := update_eq_ok_iff.1 hr
  obtain ⟨hsound, hname, -⟩ := (h.sound name t ht).apply happly
  obtain ⟨m, -, rfl⟩ := Tracked.apply_eq_ok_iff.1 happly
  exact h.totalChanges_put ht hsound (hname.trans (h.name_eq name t ht)) rfl

/-!
## Many metrics
-/

theorem Sound.totalChanges_mergeOne {r r' : Registry} (h : r.Sound) {t : Tracked} (ht : t.Sound)
    (hr : r.mergeOne t = .ok r') : r'.totalChanges = r.totalChanges + t.changes := by
  obtain ⟨hnone, rfl⟩ | ⟨s, s', hs, hmerge, rfl⟩ := mergeOne_eq_ok_iff.1 hr
  . apply h.totalChanges_insert ht (h.find?_eq_none_iff.1 hnone)
  . obtain ⟨hname, hkind, rfl⟩ := Tracked.merge_eq_ok_iff.1 hmerge
    exact h.totalChanges_put hs ((h.sound _ s hs).join ht hkind) rfl rfl

theorem Sound.totalChanges_mergeAll {r : Registry} (h : r.Sound) {ts : List Tracked}
    (hts : ∀ t ∈ ts, t.Sound) (hok : (r.mergeAll ts).2 = .ok ()) :
    (r.mergeAll ts).1.totalChanges = r.totalChanges + Tally.sum (ts.map Tracked.changes) := by
  induction ts generalizing r with
  | nil => exact (Tally.add_zero _).symm
  | cons t ts ih =>
    unfold Registry.mergeAll at hok ⊢
    split at hok
    . cases hok
    . next r' hr =>
      have ht := hts t List.mem_cons_self
      rw [ih (h.mergeOne ht hr).1 (fun u hu => hts u (List.mem_cons_of_mem t hu)) hok,
        h.totalChanges_mergeOne ht hr, List.map_cons, Tally.sum_cons, Tally.add_assoc]

theorem Sound.totalChanges_mergeEntries {r : Registry} (h : r.Sound) {ts : List Tracked}
    (hts : ∀ t ∈ ts, t.Sound) {n : Nat} (hok : (r.mergeEntries ts).2 = .ok n) :
    (r.mergeEntries ts).1.totalChanges = r.totalChanges + Tally.sum (ts.map Tracked.changes) := by
  unfold Registry.mergeEntries at hok ⊢
  split at hok
  . cases hok
  . obtain ⟨⟨⟩, hall, -⟩ := map_eq_ok_iff.1 hok
    apply h.totalChanges_mergeAll hts hall

theorem Sound.totalChanges_merge {r other : Registry} (h : r.Sound) (hother : other.Sound)
    {n : Nat} (hok : (r.merge other).2 = .ok n) :
    (r.merge other).1.totalChanges = r.totalChanges + other.totalChanges := by
  rw [hother.totalChanges_eq]
  exact h.totalChanges_mergeEntries (fun _ ht => hother.sound_of_mem_entries ht) hok

end Registry

end Metering
