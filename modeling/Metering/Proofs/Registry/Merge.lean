import Metering.Proofs.Registry.World

/-!
This module contains what a merge of one registry into another comes to.

The metrics are looked over before the first one is merged. The registry changes while they are
merged, so what was seen then is known to hold for each of them only because no two of them have the
same name.
-/

namespace Metering.Registry

def Fits (r : Registry) (t : Tracked) : Prop :=
  ∀ s, r.find? t.name = some s → s.kind = t.kind

def Compatible (r other : Registry) : Prop :=
  ∀ name s t, r.find? name = some s → other.find? name = some t → s.kind = t.kind

def Reachable (r : Registry) : Prop :=
  ∃ as i, World.run as i = some r

theorem Reachable.sound {r : Registry} (h : r.Reachable) : r.Sound := by
  obtain ⟨as, i, hr⟩ := h
  apply World.sound_run as i r hr

/-!
## Looking the metrics over
-/

theorem conflict?_eq_none_iff {r : Registry} {ts : List Tracked} :
    r.conflict? ts = none ↔ ∀ t ∈ ts, r.Fits t := by
  unfold conflict? Fits
  rw [List.findSome?_eq_none_iff]
  apply forall₂_congr
  intro t _
  cases r.find? t.name <;> simp

theorem conflict?_eq_some_iff {r : Registry} {ts : List Tracked} {e : MetricError} :
    r.conflict? ts = some e ↔
      ∃ us t vs s, ts = us ++ t :: vs ∧ (∀ u ∈ us, r.Fits u) ∧ r.find? t.name = some s
        ∧ s.kind ≠ t.kind ∧ e = .typeMismatch t.name s.kind t.kind := by
  unfold conflict?
  rw [List.findSome?_eq_some_iff]
  constructor
  . rintro ⟨us, t, vs, hts, ht, hus⟩
    have hfits : ∀ u ∈ us, r.Fits u :=
      conflict?_eq_none_iff.1 (List.findSome?_eq_none_iff.2 hus)
    cases hs : r.find? t.name with
    | none => simp [hs] at ht
    | some s =>
      rw [hs] at ht
      by_cases hkind : s.kind = t.kind
      . simp [hkind] at ht
      . simp only [if_neg hkind, Option.some.injEq] at ht
        exact ⟨us, t, vs, s, hts, hfits, hs, hkind, ht.symm⟩
  . rintro ⟨us, t, vs, s, hts, hus, hs, hkind, rfl⟩
    refine ⟨us, t, vs, hts, ?_, List.findSome?_eq_none_iff.1 (conflict?_eq_none_iff.2 hus)⟩
    simp only [hs, if_neg hkind]

/-!
## Merging one metric after the other
-/

theorem mergeOne_of_fits {r : Registry} (h : r.Sound) {t : Tracked} (hfits : r.Fits t) :
    ∃ r', r.mergeOne t = .ok r'
      ∧ r'.names = r.names ++ [t.name].filter (· ∉ r.names)
      ∧ ∀ name, r'.find? name =
        (r.find? name).merge Tracked.join (if t.name = name then some t else none) := by
  unfold mergeOne
  cases hs : r.find? t.name with
  | none =>
    have hnew := h.find?_eq_none_iff.1 hs
    refine ⟨r.insert t, rfl, by simp [hnew], ?_⟩
    intro name
    rw [find?_insert]
    split
    . next heq => rw [← heq, hs, Option.merge_none_left]
    . rw [Option.merge_none_right]
  | some s =>
    have hold := h.mem_names_iff_find?.2 ⟨s, hs⟩
    have hmerge : s.merge t = .ok (s.join t) :=
      Tracked.merge_eq_ok_iff.2 ⟨(h.name_eq _ s hs).symm, (hfits s hs).symm, rfl⟩
    simp only [hmerge]
    refine ⟨r.put t.name (s.join t), rfl, by simp [hold], ?_⟩
    intro name
    rw [find?_put]
    split
    . next heq => rw [← heq, hs, Option.merge_some_some]
    . rw [Option.merge_none_right]

theorem mergeAll_of_fits {r : Registry} (h : r.Sound) {ts : List Tracked}
    (hts : ∀ t ∈ ts, t.Sound) (hfits : ∀ t ∈ ts, r.Fits t)
    (hnodup : (ts.map Tracked.name).Nodup) :
    (r.mergeAll ts).2 = .ok ()
      ∧ (r.mergeAll ts).1.names = r.names ++ (ts.map Tracked.name).filter (· ∉ r.names)
      ∧ ∀ name, (r.mergeAll ts).1.find? name =
        (r.find? name).merge Tracked.join (ts.find? (·.name = name)) := by
  induction ts generalizing r with
  | nil => simp [mergeAll]
  -- The first metric changes the registry into which the others are merged.
  | cons t ts ih =>
    rw [List.map_cons, List.nodup_cons] at hnodup
    obtain ⟨r', hr', hnames, hfind⟩ := mergeOne_of_fits h (hfits t List.mem_cons_self)
    have hsound := (h.mergeOne (hts t List.mem_cons_self) hr').1
    have hne : ∀ u ∈ ts, t.name ≠ u.name := by
      intro u hu heq
      apply hnodup.1 (heq ▸ List.mem_map_of_mem hu)
    -- The metric just merged is not asked about again.
    have hfits' : ∀ u ∈ ts, r'.Fits u := by
      intro u hu s hs
      rw [hfind, if_neg (hne u hu), Option.merge_none_right] at hs
      apply hfits u (List.mem_cons_of_mem t hu) s hs
    have hfilter : (ts.map Tracked.name).filter (· ∉ r'.names)
        = (ts.map Tracked.name).filter (· ∉ r.names) := by
      apply List.filter_congr
      intro name hname
      obtain ⟨u, hu, rfl⟩ := List.mem_map.1 hname
      rw [hnames]
      simp [Ne.symm (hne u hu)]
    obtain ⟨hok, hnames', hfind'⟩ :=
      ih hsound (fun u hu => hts u (List.mem_cons_of_mem t hu)) hfits' hnodup.2
    have hstep : r.mergeAll (t :: ts) = r'.mergeAll ts := by
      rw [mergeAll, hr']
    rw [hstep]
    refine ⟨hok, ?_, ?_⟩
    . rw [hnames', hfilter, hnames, List.append_assoc, ← List.filter_append, List.map_cons,
        List.singleton_append]
    . intro name
      rw [hfind', hfind]
      by_cases heq : t.name = name
      . have hnone : ts.find? (·.name = name) = none := by
          rw [List.find?_eq_none]
          intro u hu
          simpa using heq ▸ Ne.symm (hne u hu)
        rw [hnone, Option.merge_none_right, List.find?_cons_of_pos (by simpa using heq),
          if_pos heq]
      . rw [if_neg heq, Option.merge_none_right, List.find?_cons_of_neg (by simpa using heq)]

/-!
## Merging registries
-/

theorem Sound.find?_entries {r : Registry} (h : r.Sound) (name : String) :
    r.entries.find? (·.name = name) = r.find? name := by
  cases hs : r.find? name with
  | none =>
    rw [List.find?_eq_none]
    intro t ht
    have htn := h.mem_entries_iff.1 ht
    have hne : t.name ≠ name := by
      rintro rfl
      rw [hs] at htn
      cases htn
    simpa using hne
  | some s =>
    have hname := h.name_eq name s hs
    have hmem : s ∈ r.entries := h.mem_entries_iff.2 (by rw [hname, hs])
    cases ht : r.entries.find? (·.name = name) with
    | none =>
      rw [List.find?_eq_none] at ht
      exact absurd hname (by simpa using ht s hmem)
    | some t =>
      have htn := h.mem_entries_iff.1 (List.mem_of_find?_eq_some ht)
      have heq : t.name = name := by simpa using List.find?_some ht
      rw [heq, hs] at htn
      rw [htn]

theorem Sound.fits_entries_iff {r other : Registry} (hother : other.Sound) :
    (∀ t ∈ other.entries, r.Fits t) ↔ r.Compatible other := by
  constructor
  . intro h name s t hs ht
    have hname := hother.name_eq name t ht
    exact h t (hother.mem_entries_iff.2 (by rw [hname, ht])) s (by rw [hname, hs])
  . intro h t ht s hs
    apply h t.name s t hs (hother.mem_entries_iff.1 ht)

theorem Sound.merge_of_compatible {r other : Registry} (h : r.Sound) (hother : other.Sound)
    (hcompat : r.Compatible other) :
    (r.merge other).2 = .ok other.size
      ∧ (r.merge other).1.names = r.names ++ other.names.filter (· ∉ r.names)
      ∧ ∀ name, (r.merge other).1.find? name =
        (r.find? name).merge Tracked.join (other.find? name) := by
  have hfits := hother.fits_entries_iff.2 hcompat
  obtain ⟨hok, hnames, hfind⟩ := mergeAll_of_fits h
    (fun t ht => hother.sound_of_mem_entries ht) hfits
    (by rw [hother.map_name_entries]; exact hother.nodup_names)
  unfold Registry.merge Registry.mergeEntries
  rw [conflict?_eq_none_iff.2 hfits]
  dsimp only
  refine ⟨?_, ?_, ?_⟩
  . rw [hok, hother.size_eq, ← hother.length_entries]
    rfl
  . rw [hnames, hother.map_name_entries]
  . intro name
    rw [hfind, hother.find?_entries]

/--
The first name of the other registry whose kinds differ is what a merge fails with. It leaves no
trace.
-/
theorem Sound.merge_of_not_compatible {r other : Registry} (hother : other.Sound)
    (hcompat : ¬r.Compatible other) :
    ∃ before name after s t, other.names = before ++ name :: after
      ∧ (∀ n ∈ before, ∀ s t, r.find? n = some s → other.find? n = some t → s.kind = t.kind)
      ∧ r.find? name = some s ∧ other.find? name = some t ∧ s.kind ≠ t.kind
      ∧ r.merge other = (r, .error (.typeMismatch name s.kind t.kind)) := by
  cases hconflict : r.conflict? other.entries with
  | none => exact absurd (hother.fits_entries_iff.1 (conflict?_eq_none_iff.1 hconflict)) hcompat
  | some e =>
    obtain ⟨us, t, vs, s, hts, hus, hs, hkind, rfl⟩ := conflict?_eq_some_iff.1 hconflict
    have hmem : t ∈ other.entries := hts ▸ List.mem_append_right us List.mem_cons_self
    -- The metrics before the first conflict are those of the names before it.
    refine ⟨us.map Tracked.name, t.name, vs.map Tracked.name, s, t, ?_, ?_, hs,
      hother.mem_entries_iff.1 hmem, hkind, ?_⟩
    . rw [← hother.map_name_entries, hts, List.map_append, List.map_cons]
    . intro n hn s' t' hs' ht'
      obtain ⟨u, hu, rfl⟩ := List.mem_map.1 hn
      have humem : u ∈ other.entries := hts ▸ List.mem_append_left (t :: vs) hu
      rw [hother.mem_entries_iff.1 humem] at ht'
      apply Option.some.inj ht' ▸ hus u hu s' hs'
    . unfold Registry.merge Registry.mergeEntries
      rw [hconflict]

theorem Sound.merge_eq_ok_iff {r other s : Registry} {n : Nat} (h : r.Sound)
    (hother : other.Sound) :
    r.merge other = (s, .ok n) ↔
      n = other.size
        ∧ r.Compatible other
        ∧ s.names = r.names ++ other.names.filter (· ∉ r.names)
        ∧ ∀ name, s.find? name = (r.find? name).merge Tracked.join (other.find? name) := by
  by_cases hcompat : r.Compatible other
  . obtain ⟨hok, hnames, hfind⟩ := h.merge_of_compatible hother hcompat
    constructor
    . intro hmerge
      rw [hmerge] at hok hnames hfind
      exact ⟨Except.ok.inj hok, hcompat, hnames, hfind⟩
    . rintro ⟨rfl, -, hnames', hfind'⟩
      refine Prod.ext (eq_of_find? ?_ ?_) hok
      . rw [hnames, hnames']
      . intro name
        rw [hfind, hfind']
  . obtain ⟨-, _, -, _, _, -, -, -, -, -, hmerge⟩ := hother.merge_of_not_compatible hcompat
    simp [hmerge, hcompat]

theorem Sound.merge_of_error {r other : Registry} {e : MetricError} (h : r.Sound)
    (hother : other.Sound) (herror : (r.merge other).2 = .error e) :
    r.merge other = (r, .error e) := by
  by_cases hcompat : r.Compatible other
  . rw [(h.merge_of_compatible hother hcompat).1] at herror
    cases herror
  . obtain ⟨-, _, -, _, _, -, -, -, -, -, hmerge⟩ := hother.merge_of_not_compatible hcompat
    rw [hmerge] at herror ⊢
    rw [← herror]

theorem Sound.find?_merge_of_none {r other : Registry} (h : r.Sound)
    (hother : other.Sound) {name : String} (hnone : other.find? name = none) :
    (r.merge other).1.find? name = r.find? name := by
  by_cases hcompat : r.Compatible other
  . rw [(h.merge_of_compatible hother hcompat).2.2, hnone, Option.merge_none_right]
  . obtain ⟨-, _, -, _, _, -, -, -, -, -, hmerge⟩ := hother.merge_of_not_compatible hcompat
    rw [hmerge]

/--
A merge takes place as a whole or not at all. It takes place if no name has two kinds, and then the
names of the other registry that are new come last, a shared one has the present metric of the
other registry, the changes of both as far as they can be counted, and the history of both. Else the
first name with two kinds is the error. In either case no other registry is touched.
-/
theorem merge_all_or_nothing {r other : Registry} (hr : r.Reachable) (hother : other.Reachable) :
    ((∃ n, (r.merge other).2 = .ok n) ↔ r.Compatible other)
      ∧ (r.Compatible other →
        (r.merge other).2 = .ok other.size
          ∧ other.size = other.entries.length
          ∧ (r.merge other).1.names = r.names ++ other.names.filter (· ∉ r.names)
          ∧ (∀ name, other.find? name = none → (r.merge other).1.find? name = r.find? name)
          ∧ (∀ name, r.find? name = none → (r.merge other).1.find? name = other.find? name)
          ∧ ∀ name s t, r.find? name = some s → other.find? name = some t →
            ∃ u, (r.merge other).1.find? name = some u
              ∧ u.current = t.current
              ∧ u.changes.toNat = min (s.changes.toNat + t.changes.toNat) (2 ^ 64 - 1)
              ∧ u.history = s.history ++ t.history)
      ∧ (¬r.Compatible other →
        ∃ before name after s t, other.names = before ++ name :: after
          ∧ (∀ n ∈ before, ∀ s t, r.find? n = some s → other.find? n = some t → s.kind = t.kind)
          ∧ r.find? name = some s ∧ other.find? name = some t ∧ s.kind ≠ t.kind
          ∧ r.merge other = (r, .error (.typeMismatch name s.kind t.kind)))
      ∧ (r.conflict? other.entries = none → (r.mergeAll other.entries).2 = .ok ())
      ∧ ∀ (w : World) i j, w i = some r → w j = some other →
        w.step (.merge i j) i = some (r.merge other).1
          ∧ ∀ k, k ≠ i → w.step (.merge i j) k = w k := by
  have h := hr.sound
  have ho := hother.sound
  refine ⟨?_, ?_, ho.merge_of_not_compatible, ?_, ?_⟩
  . constructor
    . rintro ⟨n, hn⟩
      by_contra hcompat
      obtain ⟨-, name, -, s, t, -, -, -, -, -, hmerge⟩ := ho.merge_of_not_compatible hcompat
      rw [hmerge] at hn
      cases hn
    . intro hcompat
      exact ⟨other.size, (h.merge_of_compatible ho hcompat).1⟩
  . intro hcompat
    obtain ⟨hok, hnames, hfind⟩ := h.merge_of_compatible ho hcompat
    refine ⟨hok, by rw [ho.size_eq, ho.length_entries], hnames, ?_, ?_, ?_⟩
    . intro name hnone
      rw [hfind, hnone, Option.merge_none_right]
    . intro name hnone
      rw [hfind, hnone, Option.merge_none_left]
    . intro name s t hs ht
      refine ⟨s.join t, by rw [hfind, hs, ht, Option.merge_some_some], rfl, rfl, ?_⟩
      exact (ho.sound name t ht).history_join (hcompat name s t hs ht).symm
  . intro hnone
    apply And.left
    apply mergeAll_of_fits h (fun t ht => ho.sound_of_mem_entries ht)
      (conflict?_eq_none_iff.1 hnone)
    rw [ho.map_name_entries]
    apply ho.nodup_names
  . intro w i j hi hj
    constructor
    . simp only [World.step, hj, World.alter, if_true, hi, Option.map_some]
    . intro k hk
      simp only [World.step, hj, World.alter, if_neg hk]

/--
A registry with a gauge and a counter, merged into itself and into one that has a state under the
name of the counter.
-/
theorem merge_all_or_nothing_queue :
    let as : List Action :=
      [.create 0, .register 0 (.create 0 .state "tasks" ""),
        .create 1, .register 1 (.create 0 .integerGauge "queue" ""),
        .update 1 7 "queue" (.value (.integer 5)), .register 1 (.create 0 .counter "tasks" "")]
    ∃ r other, World.run as 0 = some r ∧ World.run as 1 = some other
      ∧ (∃ e, r.merge other = (r, .error e))
      ∧ (other.merge other).2 = .ok other.size
      ∧ ∃ u, (other.merge other).1.find? "queue" = some u ∧ u.changes.toNat = 2
        ∧ u.history = [⟨.integer 0, 0⟩, ⟨.integer 0, 0⟩] := by
  intro as
  obtain ⟨r, hr⟩ := Option.isSome_iff_exists.1 (by decide : (World.run as 0).isSome)
  obtain ⟨other, hother⟩ := Option.isSome_iff_exists.1 (by decide : (World.run as 1).isSome)
  have hstate : (World.run as 0).bind (·.find? "tasks")
      = some ⟨⟨"tasks", "", .state "", 0⟩, 0, []⟩ := by decide
  have hcounter : (World.run as 1).bind (·.find? "tasks")
      = some ⟨⟨"tasks", "", .counter 0, 0⟩, 0, []⟩ := by decide
  have hgauge : (World.run as 1).bind (·.find? "queue")
      = some ⟨⟨"queue", "", .integerGauge 5, 7⟩, 1, [⟨.integer 0, 0⟩]⟩ := by decide
  rw [hr, Option.bind_some] at hstate
  rw [hother, Option.bind_some] at hcounter hgauge
  have hself : other.Compatible other := by
    intro name s t hs ht
    rw [hs] at ht
    rw [Option.some.inj ht]
  have hne : ¬r.Compatible other := by
    intro hcompat
    exact absurd (hcompat "tasks" _ _ hstate hcounter) (by decide)
  obtain ⟨-, -, hfails, -⟩ := merge_all_or_nothing ⟨as, 0, hr⟩ ⟨as, 1, hother⟩
  obtain ⟨-, hmerges, -⟩ := merge_all_or_nothing ⟨as, 1, hother⟩ ⟨as, 1, hother⟩
  obtain ⟨_, name, _, s, t, -, -, -, -, -, herror⟩ := hfails hne
  obtain ⟨hok, -, -, -, -, hshared⟩ := hmerges hself
  obtain ⟨u, hu, -, hchanges, hhistory⟩ := hshared "queue" _ _ hgauge hgauge
  exact ⟨r, other, hr, hother, ⟨_, herror⟩, hok, u, hu, hchanges, hhistory⟩

end Metering.Registry
