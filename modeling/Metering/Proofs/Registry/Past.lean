import Metering.Proofs.Registry.Merge
import Metering.Sink

/-!
This module contains what a registry remembers under a name: the texts of the values that the metric
had since the last flush. A flush sends just these texts, and then the present one.
-/

namespace Metering

namespace Tracked

def past (t : Tracked) : List String :=
  t.history.map fun r => r.value.display

theorem past_advance (t : Tracked) (m : Metric) :
    (t.advance m).past
      = t.past ++ if m.kind.keepsHistory then [t.current.value.display] else [] := by
  unfold past advance
  dsimp only
  split <;> simp [Metric.record]

theorem past_join {t other : Tracked} (h : other.Sound) (hkind : other.kind = t.kind) :
    (t.join other).past = t.past ++ other.past := by
  unfold past
  rw [h.history_join hkind, List.map_append]

theorem filter_pairs (t : Tracked) (name : String) :
    t.pairs.filter (·.1 = name) = if t.name = name then t.pairs else [] := by
  unfold pairs
  split
  . next heq => simp [heq, List.filter_map, Function.comp_def]
  . next hne => simp [hne, List.filter_map, Function.comp_def]

theorem getLast?_pairs (t : Tracked) :
    t.pairs.getLast? = some (t.name, t.current.value.display) := by
  simp [pairs]

end Tracked

def pastOf (ts : List Tracked) (name : String) : List String :=
  (ts.filter (·.name = name)).flatMap Tracked.past

def Batch.past (b : Batch) (name : String) : List String :=
  ((b.filter (·.1 = name)).map Prod.snd).dropLast

namespace Registry

def past (r : Registry) (name : String) : List String :=
  pastOf r.entries name

def overwritten (now : Int64) (r : Registry) (name : String) (u : Update) : List String :=
  match r.find? name, r.update now name u with
  | some t, .ok _ => if t.kind.keepsHistory then [t.current.value.display] else []
  | _, _ => []

theorem overwritten_of_error {now : Int64} {r : Registry} {name : String} {u : Update}
    {e : MetricError} (h : r.update now name u = .error e) : r.overwritten now name u = [] := by
  unfold overwritten
  rw [h]
  cases r.find? name <;> rfl

theorem filter_name_eq_toList {ts : List Tracked} (h : (ts.map Tracked.name).Nodup)
    (name : String) : ts.filter (·.name = name) = (ts.find? (·.name = name)).toList := by
  induction ts with
  | nil => rfl
  | cons t ts ih =>
    rw [List.map_cons, List.nodup_cons] at h
    by_cases heq : t.name = name
    . have hnil : ts.filter (·.name = name) = [] := by
        rw [List.filter_eq_nil_iff]
        intro u hu
        have hne : u.name ≠ name := fun hu' => h.1 (heq ▸ hu' ▸ List.mem_map_of_mem hu)
        simpa using hne
      simp [heq, hnil]
    . simp [heq, ih h.2]

theorem Sound.filter_entries {r : Registry} (h : r.Sound) (name : String) :
    r.entries.filter (·.name = name) = (r.find? name).toList := by
  rw [filter_name_eq_toList (h.map_name_entries ▸ h.nodup_names), h.find?_entries]

theorem Sound.past_eq {r : Registry} (h : r.Sound) (name : String) :
    r.past name = ((r.find? name).map Tracked.past).getD [] := by
  unfold past pastOf
  rw [h.filter_entries]
  cases r.find? name <;> simp

theorem Sound.past_of_find?_eq_none {r : Registry} (h : r.Sound) {name : String}
    (hnone : r.find? name = none) : r.past name = [] := by
  rw [h.past_eq, hnone]
  rfl

theorem Sound.past_of_find?_eq_some {r : Registry} (h : r.Sound) {name : String} {t : Tracked}
    (ht : r.find? name = some t) : r.past name = t.past := by
  rw [h.past_eq, ht]
  rfl

/-!
## Flushing
-/

theorem filter_flatMap_pairs (ts : List Tracked) (name : String) :
    (ts.flatMap Tracked.pairs).filter (·.1 = name)
      = (ts.filter (·.name = name)).flatMap Tracked.pairs := by
  induction ts with
  | nil => rfl
  | cons t ts ih =>
    rw [List.flatMap_cons, List.filter_append, ih, Tracked.filter_pairs, List.filter_cons]
    split
    . next heq => rw [if_pos (by simpa using heq), List.flatMap_cons]
    . next hne => rw [if_neg (by simpa using hne), List.nil_append]

theorem Sound.filter_pairs {r : Registry} (h : r.Sound) (name : String) :
    r.pairs.filter (·.1 = name) = (r.find? name).toList.flatMap Tracked.pairs := by
  unfold pairs
  rw [filter_flatMap_pairs, h.filter_entries]

theorem Sound.filter_drain {r : Registry} (h : r.Sound) {name : String} {t : Tracked}
    (ht : r.find? name = some t) :
    r.drain.1.filter (·.1 = name) = t.records.map fun s => (name, s.value.display) := by
  have hpairs := h.filter_pairs name
  rw [ht, Option.toList_some, List.flatMap_singleton, t.pairs_eq_map, h.name_eq name t ht] at hpairs
  exact hpairs

theorem Sound.past_pairs {r : Registry} (h : r.Sound) (name : String) :
    Batch.past r.pairs name = r.past name := by
  unfold Batch.past
  rw [h.filter_pairs, h.past_eq]
  cases r.find? name with
  | none => rfl
  | some t => simp [Tracked.pairs, Tracked.past, Function.comp_def]

theorem Sound.past_reset {r : Registry} (h : r.Sound) (name : String) : r.reset.past name = [] := by
  rw [h.reset.past_eq, find?_reset]
  cases r.find? name <;> rfl

/-!
## Changing
-/

theorem Sound.past_insert {r : Registry} (h : r.Sound) {t : Tracked} (ht : t.Sound)
    (hnew : t.name ∉ r.names) (name : String) :
    (r.insert t).past name = r.past name ++ if t.name = name then t.past else [] := by
  rw [(h.insert ht hnew).past_eq, find?_insert]
  split
  . next heq =>
    rw [h.past_of_find?_eq_none (h.find?_eq_none_iff.2 (heq ▸ hnew))]
    rfl
  . rw [h.past_eq, List.append_nil]

theorem Sound.past_register? {r r' : Registry} (h : r.Sound) {m : Metric}
    (hr : r.register? m = some r') (name : String) : r'.past name = r.past name := by
  obtain ⟨hfree, rfl⟩ := register?_eq_some_iff.1 hr
  rw [h.past_insert (Tracked.sound_ofMetric m) (h.find?_eq_none_iff.1 hfree)]
  split <;> simp [Tracked.past, Tracked.ofMetric]

theorem Sound.past_update {r r' : Registry} (h : r.Sound) {now : Int64} {key : String} {u : Update}
    (hr : r.update now key u = .ok r') (name : String) :
    r'.past name = r.past name ++ if key = name then r.overwritten now key u else [] := by
  have h' := (h.update hr).1
  unfold overwritten
  rw [hr]
  obtain ⟨t, t', ht, happly, rfl⟩ := update_eq_ok_iff.1 hr
  obtain ⟨m, hm, rfl⟩ := Tracked.apply_eq_ok_iff.1 happly
  rw [h'.past_eq, find?_put]
  split
  . next heq =>
    subst heq
    have hkind : m.kind = t.kind := (Tracked.same_of_updated hm).2
    rw [h.past_of_find?_eq_some ht]
    simp [Tracked.past_advance, hkind, ht]
  . rw [h.past_eq, List.append_nil]

theorem Sound.past_merge {r other : Registry} (h : r.Sound) (hother : other.Sound)
    (hcompat : r.Compatible other) (name : String) :
    (r.merge other).1.past name = r.past name ++ other.past name := by
  have hfind := (h.merge_of_compatible hother hcompat).2.2 name
  rw [(h.merge hother).1.past_eq, hfind]
  cases hs : r.find? name with
  | none => rw [h.past_of_find?_eq_none hs, hother.past_eq, Option.merge_none_left, List.nil_append]
  | some s =>
    rw [h.past_of_find?_eq_some hs]
    cases ht : other.find? name with
    | none =>
      rw [hother.past_of_find?_eq_none ht, Option.merge_none_right, List.append_nil]
      rfl
    | some t =>
      have hkind := (hcompat name s t hs ht).symm
      rw [hother.past_of_find?_eq_some ht, Option.merge_some_some]
      apply Tracked.past_join (hother.sound name t ht) hkind

/-!
## Decoding
-/

theorem past_ofEntries {ts : List Tracked} (h : (ts.map Tracked.name).Nodup) (name : String) :
    (ofEntries ts).past name = pastOf ts name := by
  unfold past
  rw [entries_ofEntries h]

end Registry

end Metering
