import Metering.Proofs.Registry.Total
import Metering.Proofs.Snapshot.RoundTrip

/-!
This module contains that it makes no difference how the metrics of one registry get into another
one: as copies, taken out, or written as a snapshot and read again. Only the patterns of what is not
a number are lost on the way, and metrics without changes are not sent.
-/

namespace Metering

/-!
## Canonical patterns
-/

theorem Double.canonical_canonical (x : Double) : x.canonical.canonical = x.canonical := by
  by_cases hnumber : x.isNaN
  . have hnan : x.canonical = nan := if_pos hnumber
    rw [hnan]
    rfl
  . have hself : x.canonical = x := if_neg hnumber
    rw [hself, hself]

theorem Value.canonical_canonical (v : Value) : v.canonical.canonical = v.canonical := by
  cases v with
  | double x => simp only [canonical, Double.canonical_canonical]
  | _ => rfl

theorem Reading.canonical_canonical (r : Reading) : r.canonical.canonical = r.canonical := by
  cases r with
  | doubleGauge x => simp only [canonical, Double.canonical_canonical]
  | _ => rfl

@[simp]
theorem Reading.kind_canonical (r : Reading) : r.canonical.kind = r.kind := by
  cases r <;> rfl

theorem Record.canonical_canonical (r : Record) : r.canonical.canonical = r.canonical := by
  simp only [canonical, Value.canonical_canonical]

namespace Tracked

@[simp]
theorem name_canonical (t : Tracked) : t.canonical.name = t.name := rfl

@[simp]
theorem kind_canonical (t : Tracked) : t.canonical.kind = t.kind :=
  Reading.kind_canonical t.current.reading

@[simp]
theorem changes_canonical (t : Tracked) : t.canonical.changes = t.changes := rfl

theorem canonical_canonical (t : Tracked) : t.canonical.canonical = t.canonical := by
  unfold canonical Metric.canonical
  simp [Reading.canonical_canonical, Record.canonical_canonical]

theorem join_canonical (t u : Tracked) :
    t.canonical.join u.canonical = (t.join u).canonical := by
  have hhistory (v : Tracked) : v.canonical.history = v.history.map Record.canonical := rfl
  ext1
  . rfl
  . rfl
  . simp only [join, hhistory, kind_canonical, changes_canonical]
    split
    . rw [List.map_append]
    . rfl

theorem checkCompatible_canonical (t u : Tracked) :
    t.canonical.checkCompatible u.canonical.current = t.checkCompatible u.current := by
  have hkind : u.canonical.current.kind = u.current.kind := u.kind_canonical
  have hname : u.canonical.current.name = u.current.name := rfl
  simp only [checkCompatible, name_canonical, kind_canonical, hkind, hname]

theorem merge_canonical (t u : Tracked) :
    t.canonical.merge u.canonical = (t.merge u).map canonical := by
  unfold merge
  rw [checkCompatible_canonical, join_canonical]
  cases t.checkCompatible u.current <;> rfl

end Tracked

namespace Registry

/--
The registry with one pattern for everything that is not a number.
-/
def canonical (r : Registry) : Registry :=
  ⟨r.map.map fun _ t => t.canonical, r.order⟩

theorem find?_canonical (r : Registry) (name : String) :
    r.canonical.find? name = (r.find? name).map Tracked.canonical := by
  simp [find?, canonical]

theorem canonical_canonical (r : Registry) : r.canonical.canonical = r.canonical := by
  refine eq_of_find? rfl fun name => ?_
  simp only [find?_canonical, Option.map_map]
  cases r.find? name <;> simp [Tracked.canonical_canonical]

theorem entries_canonical (r : Registry) :
    r.canonical.entries = r.entries.map Tracked.canonical := by
  unfold entries
  rw [List.map_filterMap]
  apply List.filterMap_congr
  intro name _
  apply find?_canonical

theorem canonical_insert (r : Registry) (t : Tracked) :
    (r.insert t).canonical = r.canonical.insert t.canonical := by
  refine eq_of_find? rfl fun name => ?_
  rw [find?_canonical, find?_insert, find?_insert, find?_canonical]
  split <;> simp_all

theorem canonical_put (r : Registry) (name : String) (t : Tracked) :
    (r.put name t).canonical = r.canonical.put name t.canonical := by
  refine eq_of_find? rfl fun key => ?_
  rw [find?_canonical, find?_put, find?_put, find?_canonical]
  split <;> rfl

theorem canonical_foldl_insert (r : Registry) (ts : List Tracked) :
    (ts.foldl insert r).canonical = (ts.map Tracked.canonical).foldl insert r.canonical := by
  induction ts generalizing r with
  | nil => rfl
  | cons t ts ih => rw [List.foldl_cons, ih, canonical_insert, List.map_cons, List.foldl_cons]

theorem canonical_ofEntries (ts : List Tracked) :
    (ofEntries ts).canonical = ofEntries (ts.map Tracked.canonical) := by
  have hempty : empty.canonical = empty := by
    refine eq_of_find? rfl fun name => ?_
    rw [find?_canonical, find?_empty, Option.map_none]
  unfold ofEntries
  rw [canonical_foldl_insert, hempty]

/-!
## Merging canonical metrics
-/

theorem conflict?_canonical (r : Registry) (ts : List Tracked) :
    r.canonical.conflict? (ts.map Tracked.canonical) = r.conflict? ts := by
  unfold conflict?
  rw [List.findSome?_map]
  congr 1
  funext t
  simp only [Function.comp_apply, Tracked.name_canonical, Tracked.kind_canonical, find?_canonical]
  cases r.find? t.name <;> simp

theorem mergeOne_canonical (r : Registry) (t : Tracked) :
    r.canonical.mergeOne t.canonical = (r.mergeOne t).map canonical := by
  unfold mergeOne
  rw [Tracked.name_canonical, find?_canonical]
  cases r.find? t.name with
  | none => simp [canonical_insert, Except.map]
  | some s =>
    simp only [Option.map_some, Tracked.merge_canonical]
    cases s.merge t with
    | error e => rfl
    | ok u => simp [canonical_put, Except.map]

theorem mergeAll_canonical (r : Registry) (ts : List Tracked) :
    r.canonical.mergeAll (ts.map Tracked.canonical)
      = ((r.mergeAll ts).1.canonical, (r.mergeAll ts).2) := by
  induction ts generalizing r with
  | nil => rfl
  | cons t ts ih =>
    rw [List.map_cons, mergeAll, mergeAll, mergeOne_canonical]
    cases r.mergeOne t with
    | error e => rfl
    | ok r' => exact ih r'

theorem merge_canonical (r s : Registry) :
    r.canonical.merge s.canonical = ((r.merge s).1.canonical, (r.merge s).2) := by
  unfold merge mergeEntries
  rw [entries_canonical, conflict?_canonical, mergeAll_canonical, List.length_map]
  cases r.conflict? s.entries <;> rfl

/--
Merging one registry or its canonical one comes to the same, apart from the patterns.
-/
theorem merge_canonical_right (r s : Registry) :
    (r.merge s.canonical).2 = (r.merge s).2
      ∧ (r.merge s.canonical).1.canonical = (r.merge s).1.canonical := by
  have hboth := r.merge_canonical s.canonical
  rw [canonical_canonical, merge_canonical, Prod.mk.injEq] at hboth
  exact ⟨hboth.2.symm, hboth.1.symm⟩

/-!
## Sending the changed metrics
-/

theorem sum_changes_filter (ts : List Tracked) :
    Tally.sum ((ts.filter fun t => 0 < t.changes.toNat).map Tracked.changes)
      = Tally.sum (ts.map Tracked.changes) := by
  induction ts with
  | nil => rfl
  | cons t ts ih =>
    by_cases hpos : 0 < t.changes.toNat
    . rw [List.filter_cons_of_pos (by simpa using hpos), List.map_cons, List.map_cons,
        Tally.sum_cons, Tally.sum_cons, ih]
    . have hzero : t.changes = 0 := by
        ext
        rw [Tally.toNat_zero]
        omega
      rw [List.filter_cons_of_neg (by simpa using hpos), List.map_cons, Tally.sum_cons, ih, hzero,
        Tally.zero_add]

theorem Sound.nodup_names_changed {r : Registry} (h : r.Sound) :
    (r.changed.map Tracked.name).Nodup := by
  have hnodup := h.nodup_names
  rw [← h.map_name_entries] at hnodup
  exact hnodup.sublist (List.filter_sublist.map _)

theorem Sound.decode_serialize {r : Registry} (h : r.Sound) :
    Snapshot.decode r.serialize = .ok (r.changed.map Tracked.canonical) := by
  have hsound : ∀ t ∈ r.changed, t.Sound :=
    fun t ht => h.sound_of_mem_entries (List.mem_of_mem_filter ht)
  unfold serialize Snapshot.decode
  rw [Snapshot.entries?_encode]
  dsimp only
  rw [Snapshot.checkEntries_written hsound h.nodup_names_changed fun _ _ => List.not_mem_nil]

theorem Sound.deserialize_serialize {r : Registry} (h : r.Sound) :
    deserialize r.serialize = .ok (ofEntries r.changed).canonical := by
  unfold deserialize
  rw [h.decode_serialize, canonical_ofEntries]
  rfl

/--
It comes to the same whether a registry is merged into another one or absorbed by it. What a
registry sends is read again as its changed metrics in their order, and absorbing it comes to the
same as merging just these metrics, where everything that is not a number counts as the same.
-/
theorem ways_of_merging_agree {a b : Registry} (hb : b.Reachable) :
    (a.absorb b).1 = a.merge b
      ∧ ∃ d, deserialize b.serialize = .ok d
        ∧ d.entries = b.changed.map Tracked.canonical
        ∧ d.names = b.changed.map Tracked.name
        ∧ d.size = b.changed.length
        ∧ d.totalChanges = b.totalChanges
        ∧ (ofEntries b.changed).entries = b.changed
        ∧ (a.absorb d).1.2 = (a.merge (ofEntries b.changed)).2
        ∧ (a.absorb d).1.1.canonical = (a.merge (ofEntries b.changed)).1.canonical := by
  have h := hb.sound
  have hd := h.deserialize_serialize
  have hsound := sound_of_deserialize hd
  have hchanged := entries_ofEntries h.nodup_names_changed
  have hentries : (ofEntries b.changed).canonical.entries = b.changed.map Tracked.canonical := by
    rw [entries_canonical, hchanged]
  have hnames : (ofEntries b.changed).canonical.names = b.changed.map Tracked.name := by
    rw [← hsound.map_name_entries, hentries, List.map_map]
    rfl
  refine ⟨h.absorb_eq_merge a, (ofEntries b.changed).canonical, hd, hentries, hnames, ?_, ?_,
    hchanged, ?_⟩
  . rw [hsound.size_eq, hnames, List.length_map]
  . rw [hsound.totalChanges_eq, hentries, h.totalChanges_eq,
      ← sum_changes_filter b.entries, List.map_map]
    rfl
  . rw [hsound.absorb_eq_merge]
    apply a.merge_canonical_right

/--
A gauge that went to what is not a number, and a counter without changes under a name that the other
registry has for a state.
-/
theorem ways_of_merging_agree_load :
    let as : List Action :=
      [.create 0, .register 0 (.create 0 .state "tasks" ""),
        .create 1, .register 1 (.create 0 .counter "tasks" ""),
        .register 1 (.create 0 .doubleGauge "load" ""),
        .update 1 3 "load" (.value (.double ⟨0xFFF8000000000001⟩))]
    ∃ a b d, World.run as 0 = some a ∧ World.run as 1 = some b
      ∧ (∃ e, (a.absorb b).1.2 = .error e)
      ∧ deserialize b.serialize = .ok d
      ∧ d.entries = [⟨⟨"load", "", .doubleGauge .nan, 3⟩, 1, [⟨.double 0, 0⟩]⟩]
      ∧ d.totalChanges = 1
      ∧ (a.absorb d).1.2 = .ok 1 := by
  intro as
  obtain ⟨a, ha⟩ := Option.isSome_iff_exists.1 (by decide : (World.run as 0).isSome)
  obtain ⟨b, hb⟩ := Option.isSome_iff_exists.1 (by decide : (World.run as 1).isSome)
  have hsent : (World.run as 1).map (fun b => (b.changed.map Tracked.canonical, b.totalChanges))
      = some ([⟨⟨"load", "", .doubleGauge .nan, 3⟩, 1, [⟨.double 0, 0⟩]⟩], 1) := by decide
  have hresults : (World.run as 0).bind (fun a => (World.run as 1).map fun b =>
      ((a.merge b).2, (a.merge (ofEntries b.changed)).2))
      = some (.error (.typeMismatch "tasks" .state .counter), .ok 1) := by decide
  rw [hb, Option.map_some, Option.some.injEq, Prod.mk.injEq] at hsent
  rw [ha, hb, Option.bind_some, Option.map_some, Option.some.injEq, Prod.mk.injEq] at hresults
  obtain ⟨habsorb, d, hd, hentries, -, -, htotal, -, hresult, -⟩ :=
    ways_of_merging_agree (a := a) ⟨as, 1, hb⟩
  refine ⟨a, b, d, ha, hb, ⟨_, habsorb ▸ hresults.1⟩, hd, hentries.trans hsent.1, ?_, ?_⟩
  . rw [htotal, hsent.2]
  . rw [hresult, hresults.2]

end Registry

end Metering
