import Mathlib.Data.List.Perm.Basic
import Mathlib.Data.List.Nodup
import Metering.Proofs.Tracked.Sound

/-!
This module contains the invariant of registries, which ties the map of the metrics to the list of
their names, and that every operation keeps it. No operation takes a name away, moves it, or changes
the kind of the metric under it.
-/

namespace Metering.Registry

structure Sound (r : Registry) : Prop where
  nodup_names : r.names.Nodup
  mem_names_iff : ∀ name, name ∈ r.names ↔ name ∈ r.map
  name_eq : ∀ name t, r.find? name = some t → t.name = name
  sound : ∀ name t, r.find? name = some t → t.Sound

structure Extends (s r : Registry) : Prop where
  names : r.names <+: s.names
  kind : ∀ name t, r.find? name = some t → ∃ u, s.find? name = some u ∧ u.kind = t.kind

theorem Extends.refl (r : Registry) : r.Extends r where
  names := List.prefix_rfl
  kind _ t ht := ⟨t, ht, rfl⟩

theorem Extends.trans {r s q : Registry} (hs : s.Extends r) (hq : q.Extends s) : q.Extends r where
  names := List.IsPrefix.trans hs.names hq.names
  kind name t ht := by
    obtain ⟨u, hu, hkind⟩ := hs.kind name t ht
    obtain ⟨v, hv, hkind'⟩ := hq.kind name u hu
    exact ⟨v, hv, hkind'.trans hkind⟩

theorem sound_empty : empty.Sound where
  nodup_names := List.nodup_nil
  mem_names_iff name := by
    rw [mem_map_iff, find?_empty]
    simp [empty, names]
  name_eq name t ht := by
    rw [find?_empty] at ht
    cases ht
  sound name t ht := by
    rw [find?_empty] at ht
    cases ht

theorem Sound.mem_names_iff_find? {r : Registry} (h : r.Sound) {name : String} :
    name ∈ r.names ↔ ∃ t, r.find? name = some t := by
  rw [h.mem_names_iff, mem_map_iff]

theorem Sound.find?_eq_none_iff {r : Registry} (h : r.Sound) {name : String} :
    r.find? name = none ↔ name ∉ r.names := by
  rw [h.mem_names_iff_find?, Option.eq_none_iff_forall_ne_some]
  simp only [ne_eq, not_exists]

/-!
## Listing the metrics
-/

theorem map_filterMap_eq_self {α β : Type} {f : α → Option β} {g : β → α} {as : List α}
    (h : ∀ a ∈ as, ∃ b, f a = some b ∧ g b = a) : (as.filterMap f).map g = as := by
  induction as with
  | nil => rfl
  | cons a as ih =>
    obtain ⟨b, hb, hg⟩ := h a List.mem_cons_self
    rw [List.filterMap_cons_some hb, List.map_cons, hg]
    rw [ih (fun a' ha' => h a' (List.mem_cons_of_mem a ha'))]

theorem Sound.map_name_entries {r : Registry} (h : r.Sound) :
    r.entries.map Tracked.name = r.names := by
  apply map_filterMap_eq_self
  intro name hname
  obtain ⟨t, ht⟩ := h.mem_names_iff_find?.1 hname
  exact ⟨t, ht, h.name_eq name t ht⟩

theorem Sound.mem_entries_iff {r : Registry} (h : r.Sound) {t : Tracked} :
    t ∈ r.entries ↔ r.find? t.name = some t := by
  unfold entries
  rw [List.mem_filterMap]
  constructor
  . rintro ⟨name, -, ht⟩
    rwa [h.name_eq name t ht]
  . intro ht
    exact ⟨t.name, h.mem_names_iff_find?.2 ⟨t, ht⟩, ht⟩

theorem Sound.sound_of_mem_entries {r : Registry} (h : r.Sound) {t : Tracked}
    (ht : t ∈ r.entries) : t.Sound :=
  h.sound t.name t (h.mem_entries_iff.1 ht)

theorem Sound.length_entries {r : Registry} (h : r.Sound) : r.entries.length = r.names.length := by
  rw [← h.map_name_entries, List.length_map]

theorem Sound.perm_names {r : Registry} (h : r.Sound) : r.map.keys.Perm r.names := by
  -- The keys of the map and the names in order are the same without repetition.
  apply (List.perm_ext_iff_of_nodup Std.ExtTreeMap.nodup_keys h.nodup_names).2
  intro name
  rw [Std.ExtTreeMap.mem_keys, h.mem_names_iff]

theorem Sound.size_eq {r : Registry} (h : r.Sound) : r.size = r.names.length := by
  unfold size
  rw [← Std.ExtTreeMap.length_keys, h.perm_names.length_eq]

theorem Sound.perm_entries {r : Registry} (h : r.Sound) :
    (r.map.toList.map Prod.snd).Perm r.entries := by
  have hlookup : r.map.toList.map Prod.snd = r.map.keys.filterMap r.find? := by
    rw [← Std.ExtTreeMap.map_fst_toList_eq_keys, List.filterMap_map, ← List.filterMap_eq_map]
    apply List.filterMap_congr
    rintro ⟨name, t⟩ hmem
    exact (Std.ExtTreeMap.mem_toList_iff_getElem?_eq_some.1 hmem).symm
  rw [hlookup]
  apply h.perm_names.filterMap

theorem takeOut_eq_filterMap {map : Std.ExtTreeMap String Tracked} {ns : List String}
    (h : ns.Nodup) : takeOut map ns = ns.filterMap (map[·]?) := by
  induction ns generalizing map with
  | nil => rfl
  | cons name ns ih =>
    rw [List.nodup_cons] at h
    unfold takeOut
    split
    . next hnone => rw [List.filterMap_cons_none hnone, ih h.2]
    . next t ht =>
      rw [List.filterMap_cons_some ht, ih h.2]
      congr 1
      apply List.filterMap_congr
      intro n hn
      -- The names that come later are others, so they are still in the map.
      have hne : name ≠ n := fun heq => h.1 (heq ▸ hn)
      simp [Std.ExtTreeMap.getElem?_erase, hne]

theorem Sound.takeOut_eq_entries {r : Registry} (h : r.Sound) :
    takeOut r.map r.order = r.entries :=
  takeOut_eq_filterMap h.nodup_names

/-!
## Single metrics
-/

theorem Sound.insert {r : Registry} (h : r.Sound) {t : Tracked} (ht : t.Sound)
    (hnew : t.name ∉ r.names) : (r.insert t).Sound where
  nodup_names := by
    rw [names_insert]
    exact List.nodup_append.2 ⟨h.nodup_names, List.nodup_singleton _, by grind⟩
  mem_names_iff name := by
    rw [names_insert, mem_map_iff, find?_insert, List.mem_append, List.mem_singleton,
      h.mem_names_iff_find?]
    split
    . next heq => simp [heq]
    . next hne => simp [Ne.symm hne]
  name_eq name u hu := by
    rw [find?_insert] at hu
    split at hu
    . next heq => rwa [← Option.some.inj hu]
    . apply h.name_eq name u hu
  sound name u hu := by
    rw [find?_insert] at hu
    split at hu
    . rwa [← Option.some.inj hu]
    . apply h.sound name u hu

theorem Sound.extends_insert {r : Registry} (h : r.Sound) {t : Tracked} (hnew : t.name ∉ r.names) :
    (r.insert t).Extends r where
  names := by
    rw [names_insert]
    apply List.prefix_append
  kind name u hu := by
    have hne : t.name ≠ name := by
      rintro rfl
      exact hnew (h.mem_names_iff_find?.2 ⟨u, hu⟩)
    rw [find?_insert, if_neg hne]
    exact ⟨u, hu, rfl⟩

theorem entries_insert {r : Registry} {t : Tracked} (hnew : t.name ∉ r.names) :
    (r.insert t).entries = r.entries ++ [t] := by
  have hentries : (r.insert t).entries = (r.names ++ [t.name]).filterMap (r.insert t).find? := rfl
  rw [hentries, List.filterMap_append]
  congr 1
  . apply List.filterMap_congr
    intro n hn
    have hne : t.name ≠ n := fun heq => hnew (heq ▸ hn)
    rw [find?_insert, if_neg hne]
  . simp [find?_insert]

theorem Sound.put {r : Registry} (h : r.Sound) {name : String} {s t : Tracked}
    (hs : r.find? name = some s) (ht : t.Sound) (hname : t.name = name) :
    (r.put name t).Sound where
  nodup_names := h.nodup_names
  mem_names_iff key := by
    rw [names_put, mem_map_iff, find?_put, h.mem_names_iff_find?]
    split
    . next heq => simp [← heq, hs]
    . rfl
  name_eq key u hu := by
    rw [find?_put] at hu
    split at hu
    . next heq => rw [← Option.some.inj hu, hname, heq]
    . apply h.name_eq key u hu
  sound key u hu := by
    rw [find?_put] at hu
    split at hu
    . rwa [← Option.some.inj hu]
    . apply h.sound key u hu

theorem extends_put {r : Registry} {name : String} {s t : Tracked} (hs : r.find? name = some s)
    (hkind : t.kind = s.kind) : (r.put name t).Extends r where
  names := List.prefix_rfl
  kind key u hu := by
    rw [find?_put]
    split
    . next heq =>
      rw [← heq, hs] at hu
      exact ⟨t, rfl, Option.some.inj hu ▸ hkind⟩
    . exact ⟨u, hu, rfl⟩

theorem find?_register? {r r' : Registry} {m : Metric} (hr : r.register? m = some r')
    {name : String} {t : Tracked} (ht : r.find? name = some t) : r'.find? name = some t := by
  obtain ⟨hfree, rfl⟩ := register?_eq_some_iff.1 hr
  have hne : m.name ≠ name := by
    rintro rfl
    rw [hfree] at ht
    cases ht
  rw [find?_insert, Tracked.name_ofMetric, if_neg hne, ht]

theorem Sound.register? {r r' : Registry} (h : r.Sound) {m : Metric}
    (hr : r.register? m = some r') : r'.Sound ∧ r'.Extends r := by
  obtain ⟨hfree, rfl⟩ := register?_eq_some_iff.1 hr
  have hnew : (Tracked.ofMetric m).name ∉ r.names := h.find?_eq_none_iff.1 hfree
  exact ⟨h.insert (Tracked.sound_ofMetric m) hnew, h.extends_insert hnew⟩

theorem Sound.update {r r' : Registry} (h : r.Sound) {now : Int64} {name : String} {u : Update}
    (hr : r.update now name u = .ok r') : r'.Sound ∧ r'.Extends r := by
  obtain ⟨t, t', ht, happly, rfl⟩ := update_eq_ok_iff.1 hr
  obtain ⟨hsound, hname, hkind⟩ := (h.sound name t ht).apply happly
  have hname := hname.trans (h.name_eq name t ht)
  exact ⟨h.put ht hsound hname, extends_put ht hkind⟩

theorem Sound.reset {r : Registry} (h : r.Sound) : r.reset.Sound where
  nodup_names := h.nodup_names
  mem_names_iff name := by
    rw [names_reset, mem_map_iff, find?_reset, h.mem_names_iff_find?]
    cases r.find? name <;> simp
  name_eq name t ht := by
    rw [find?_reset, Option.map_eq_some_iff] at ht
    obtain ⟨s, hs, rfl⟩ := ht
    apply h.name_eq name s hs
  sound name t ht := by
    rw [find?_reset, Option.map_eq_some_iff] at ht
    obtain ⟨s, -, rfl⟩ := ht
    apply s.sound_reset

theorem extends_reset (r : Registry) : r.reset.Extends r where
  names := List.prefix_rfl
  kind name t ht := by
    rw [find?_reset, ht]
    exact ⟨t.reset, rfl, rfl⟩

/-!
## Many metrics
-/

theorem not_mem_of_nodup_append_cons {α : Type} {as bs : List α} {a : α}
    (h : (as ++ a :: bs).Nodup) : a ∉ as := by
  intro hmem
  rw [List.nodup_middle, List.nodup_cons] at h
  apply h.1 (List.mem_append_left bs hmem)

theorem Sound.foldl_insert {r : Registry} (h : r.Sound) {ts : List Tracked}
    (hts : ∀ t ∈ ts, t.Sound) (hnodup : (r.names ++ ts.map Tracked.name).Nodup) :
    (ts.foldl Registry.insert r).Sound := by
  induction ts generalizing r with
  | nil => exact h
  | cons t ts ih =>
    rw [List.map_cons] at hnodup
    have hnew := not_mem_of_nodup_append_cons hnodup
    rw [List.append_cons] at hnodup
    rw [List.foldl_cons]
    apply ih (h.insert (hts t List.mem_cons_self) hnew)
    . intro u hu
      apply hts u (List.mem_cons_of_mem t hu)
    . rwa [names_insert]

theorem entries_foldl_insert {r : Registry} {ts : List Tracked}
    (h : (r.names ++ ts.map Tracked.name).Nodup) :
    (ts.foldl Registry.insert r).entries = r.entries ++ ts := by
  induction ts generalizing r with
  | nil => simp
  | cons t ts ih =>
    rw [List.map_cons] at h
    have hnew := not_mem_of_nodup_append_cons h
    rw [List.append_cons] at h
    rw [List.foldl_cons, ih, entries_insert hnew, List.append_assoc, List.singleton_append]
    rwa [names_insert]

theorem entries_ofEntries {ts : List Tracked} (h : (ts.map Tracked.name).Nodup) :
    (ofEntries ts).entries = ts :=
  entries_foldl_insert (r := empty) h

theorem sound_ofEntries {ts : List Tracked} (hts : ∀ t ∈ ts, t.Sound)
    (hnodup : (ts.map Tracked.name).Nodup) : (ofEntries ts).Sound :=
  sound_empty.foldl_insert hts hnodup

theorem names_ofEntries {ts : List Tracked} (hts : ∀ t ∈ ts, t.Sound)
    (hnodup : (ts.map Tracked.name).Nodup) : (ofEntries ts).names = ts.map Tracked.name := by
  rw [← (sound_ofEntries hts hnodup).map_name_entries, entries_ofEntries hnodup]

theorem size_ofEntries {ts : List Tracked} (hts : ∀ t ∈ ts, t.Sound)
    (hnodup : (ts.map Tracked.name).Nodup) : (ofEntries ts).size = ts.length := by
  rw [(sound_ofEntries hts hnodup).size_eq, names_ofEntries hts hnodup, List.length_map]

theorem find?_ofEntries_eq_none {ts : List Tracked} (hts : ∀ t ∈ ts, t.Sound)
    (hnodup : (ts.map Tracked.name).Nodup) {name : String}
    (hname : name ∉ ts.map Tracked.name) : (ofEntries ts).find? name = none := by
  rwa [(sound_ofEntries hts hnodup).find?_eq_none_iff, names_ofEntries hts hnodup]

theorem find?_ofEntries_ne_zero {ts : List Tracked} (hts : ∀ t ∈ ts, t.Sound)
    (hnodup : (ts.map Tracked.name).Nodup) (hpos : ∀ t ∈ ts, 0 < t.changes.toNat)
    {name : String} (hname : name ∈ ts.map Tracked.name) :
    ∃ u, (ofEntries ts).find? name = some u ∧ u.changes.toNat ≠ 0 := by
  have h := sound_ofEntries hts hnodup
  rw [← names_ofEntries hts hnodup, h.mem_names_iff_find?] at hname
  obtain ⟨u, hu⟩ := hname
  have hmem : u ∈ (ofEntries ts).entries := h.mem_entries_iff.2 (by rwa [h.name_eq name u hu])
  rw [entries_ofEntries hnodup] at hmem
  exact ⟨u, hu, Nat.ne_of_gt (hpos u hmem)⟩

theorem sound_of_deserialize {bs : Bytes} {r : Registry} (h : deserialize bs = .ok r) :
    r.Sound := by
  obtain ⟨ts, hts, rfl⟩ := deserialize_eq_ok_iff.1 h
  obtain ⟨hsound, hnodup⟩ := Snapshot.sound_of_decode hts
  apply sound_ofEntries hsound hnodup

theorem Sound.mergeOne {r r' : Registry} (h : r.Sound) {t : Tracked} (ht : t.Sound)
    (hr : r.mergeOne t = .ok r') : r'.Sound ∧ r'.Extends r := by
  obtain ⟨hnone, rfl⟩ | ⟨s, s', hs, hmerge, rfl⟩ := mergeOne_eq_ok_iff.1 hr
  . have hnew := h.find?_eq_none_iff.1 hnone
    exact ⟨h.insert ht hnew, h.extends_insert hnew⟩
  . obtain ⟨hname, hkind, rfl⟩ := Tracked.merge_eq_ok_iff.1 hmerge
    exact ⟨h.put hs ((h.sound _ s hs).join ht hkind) rfl, extends_put hs hkind⟩

theorem Sound.mergeAll {r : Registry} (h : r.Sound) {ts : List Tracked} (hts : ∀ t ∈ ts, t.Sound) :
    (r.mergeAll ts).1.Sound ∧ (r.mergeAll ts).1.Extends r := by
  induction ts generalizing r with
  | nil => exact ⟨h, Extends.refl r⟩
  | cons t ts ih =>
    unfold Registry.mergeAll
    split
    . exact ⟨h, Extends.refl r⟩
    . next r' hr =>
      obtain ⟨hsound, hext⟩ := h.mergeOne (hts t List.mem_cons_self) hr
      obtain ⟨hsound', hext'⟩ := ih hsound (fun u hu => hts u (List.mem_cons_of_mem t hu))
      exact ⟨hsound', hext.trans hext'⟩

theorem Sound.mergeEntries {r : Registry} (h : r.Sound) {ts : List Tracked}
    (hts : ∀ t ∈ ts, t.Sound) :
    (r.mergeEntries ts).1.Sound ∧ (r.mergeEntries ts).1.Extends r := by
  unfold Registry.mergeEntries
  split
  . exact ⟨h, Extends.refl r⟩
  . apply h.mergeAll hts

theorem Sound.merge {r s : Registry} (h : r.Sound) (hs : s.Sound) :
    (r.merge s).1.Sound ∧ (r.merge s).1.Extends r :=
  h.mergeEntries fun _ ht => hs.sound_of_mem_entries ht

theorem Sound.absorb_eq_merge {s : Registry} (hs : s.Sound) (r : Registry) :
    (r.absorb s).1 = r.merge s := by
  unfold absorb Registry.merge
  rw [hs.takeOut_eq_entries]

end Metering.Registry
