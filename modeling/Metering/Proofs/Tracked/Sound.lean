import Metering.Snapshot.Basic

/-!
This module contains the invariant of tracked metrics. Every operation keeps it, and what a snapshot
says about a metric is refused unless it holds.
-/

namespace Metering

def Kind.Shows (k : Kind) (v : Value) : Prop :=
  ∃ r : Reading, r.kind = k ∧ r.value = v

theorem Kind.shows_value (m : Metric) : m.kind.Shows m.value :=
  ⟨m.reading, rfl, rfl⟩

theorem Kind.shows_of_coerce? {k : Kind} {v w : Value} (h : k.coerce? v = some w) : k.Shows w := by
  rw [coerce?_eq, Option.map_eq_some_iff] at h
  obtain ⟨r, hr, rfl⟩ := h
  exact ⟨r, Reading.kind_of_ofValue? hr, rfl⟩

theorem Kind.shows_integerGauge_iff {v : Value} :
    Kind.integerGauge.Shows v ↔ ∃ n, v = .integer n := by
  constructor
  . rintro ⟨r, hkind, rfl⟩
    cases r with
    | integerGauge n => exact ⟨n, rfl⟩
    | _ => cases hkind
  . rintro ⟨n, rfl⟩
    exact ⟨.integerGauge n, rfl, rfl⟩

theorem Kind.shows_doubleGauge_iff {v : Value} :
    Kind.doubleGauge.Shows v ↔ ∃ x, v = .double x := by
  constructor
  . rintro ⟨r, hkind, rfl⟩
    cases r with
    | doubleGauge x => exact ⟨x, rfl⟩
    | _ => cases hkind
  . rintro ⟨x, rfl⟩
    exact ⟨.doubleGauge x, rfl, rfl⟩

namespace Tracked

/--
What holds of every tracked metric: it has no history without changes, none if its kind keeps none,
and otherwise a history of values of its kind.
-/
structure Sound (t : Tracked) : Prop where
  history_eq_nil_of_changes : t.changes.toNat = 0 → t.history = []
  history_eq_nil_of_kind : ¬t.kind.keepsHistory → t.history = []
  shows : ∀ r ∈ t.history, t.kind.Shows r.value

theorem sound_of_history_eq_nil {t : Tracked} (h : t.history = []) : t.Sound where
  history_eq_nil_of_changes _ := h
  history_eq_nil_of_kind _ := h
  shows r hr := by
    rw [h] at hr
    cases hr

theorem sound_ofMetric (m : Metric) : (ofMetric m).Sound :=
  sound_of_history_eq_nil rfl

theorem sound_reset (t : Tracked) : t.reset.Sound :=
  sound_of_history_eq_nil rfl

theorem changes_advance_ne_zero (t : Tracked) (m : Metric) : (t.advance m).changes.toNat ≠ 0 := by
  simp only [advance, Tally.toNat_add, Tally.toNat_one, Tally.max]
  omega

theorem changes_join_ne_zero {t other : Tracked} (h : other.changes.toNat ≠ 0) :
    (t.join other).changes.toNat ≠ 0 := by
  simp only [join, Tally.toNat_add, Tally.max]
  omega

/--
The records of a metric, the present one last.
-/
def records (t : Tracked) : List Record :=
  t.history ++ [t.current.record]

theorem pairs_eq_map (t : Tracked) :
    t.pairs = t.records.map fun s => (t.name, s.value.display) := by
  simp [pairs, records, Metric.record]

theorem records_advance {t : Tracked} (hkeeps : t.kind.keepsHistory) {m : Metric}
    (hkind : m.kind = t.kind) : (t.advance m).records = t.records ++ [m.record] := by
  simp only [records, advance, if_pos (hkind ▸ hkeeps)]

theorem Sound.advance {t : Tracked} (h : t.Sound) {m : Metric} (hkind : m.kind = t.kind) :
    (t.advance m).Sound where
  history_eq_nil_of_changes hzero := absurd hzero (t.changes_advance_ne_zero m)
  history_eq_nil_of_kind hkeeps := by
    have hkeeps : ¬m.kind.keepsHistory := hkeeps
    simp only [Tracked.advance, if_neg hkeeps]
    apply h.history_eq_nil_of_kind (hkind ▸ hkeeps)
  shows r hr := by
    have hthis : (t.advance m).kind = t.kind := hkind
    rw [hthis]
    -- A value that is added to the history was one of the metric.
    simp only [Tracked.advance] at hr
    split at hr
    . cases List.mem_append.1 hr with
      | inl hr => apply h.shows r hr
      | inr hr =>
        rw [List.mem_singleton.1 hr]
        apply Kind.shows_value t.current
    . apply h.shows r hr

theorem Sound.apply {t t' : Tracked} (h : t.Sound) {now : Int64} {u : Update}
    (happly : t.apply now u = .ok t') : t'.Sound ∧ t'.name = t.name ∧ t'.kind = t.kind := by
  obtain ⟨m, hm, rfl⟩ := apply_eq_ok_iff.1 happly
  have hsame := same_of_updated hm
  exact ⟨h.advance hsame.2, hsame⟩

theorem Sound.history_join {t other : Tracked} (h : other.Sound) (hkind : other.kind = t.kind) :
    (t.join other).history = t.history ++ other.history := by
  simp only [Tracked.join]
  split
  . rfl
  . next hguard =>
    -- The guard passes over a history only where there is none.
    have hnil : other.history = [] := by
      by_cases hkeeps : t.kind.keepsHistory
      . apply h.history_eq_nil_of_changes
        have hzero : ¬0 < other.changes.toNat := fun hpos => hguard ⟨hpos, hkeeps⟩
        omega
      . apply h.history_eq_nil_of_kind (hkind ▸ hkeeps)
    rw [hnil, List.append_nil]

theorem Sound.records_join {t other : Tracked} (h : other.Sound) (hkind : other.kind = t.kind) :
    (t.join other).records = t.history ++ other.records := by
  rw [records, h.history_join hkind, List.append_assoc]
  rfl

theorem Sound.join {t other : Tracked} (h : t.Sound) (hother : other.Sound)
    (hkind : other.kind = t.kind) : (t.join other).Sound where
  history_eq_nil_of_changes hzero := by
    have hadd : (t.join other).changes.toNat
        = min (t.changes.toNat + other.changes.toNat) Tally.max := rfl
    have hpos : 0 < Tally.max := by decide
    rw [hother.history_join hkind, h.history_eq_nil_of_changes (by omega),
      hother.history_eq_nil_of_changes (by omega), List.append_nil]
  history_eq_nil_of_kind hkeeps := by
    have hkeeps : ¬other.kind.keepsHistory := hkeeps
    rw [hother.history_join hkind, h.history_eq_nil_of_kind (hkind ▸ hkeeps),
      hother.history_eq_nil_of_kind hkeeps, List.append_nil]
  shows r hr := by
    have hthis : (t.join other).kind = t.kind := hkind
    rw [hthis]
    rw [hother.history_join hkind] at hr
    cases List.mem_append.1 hr with
    | inl hr => apply h.shows r hr
    | inr hr => apply hkind ▸ hother.shows r hr

end Tracked

namespace Snapshot

theorem Entry.shows_of_checkRecord {name : String} {k : Kind} {r s : Record}
    (h : checkRecord name k r = .ok s) : k.Shows s.value := by
  unfold checkRecord at h
  split at h
  . next v hv =>
    cases h
    apply Kind.shows_of_coerce? hv
  . cases h

theorem Entry.shows_of_checkRecords {name : String} {k : Kind} {rs ss : List Record}
    (h : rs.mapM (checkRecord name k) = .ok ss) : ∀ s ∈ ss, k.Shows s.value := by
  induction rs generalizing ss with
  | nil =>
    cases h
    simp
  | cons r rs ih =>
    rw [List.mapM_cons, bind_eq_ok_iff] at h
    obtain ⟨s, hs, h⟩ := h
    rw [bind_eq_ok_iff] at h
    obtain ⟨ss', hss, h⟩ := h
    cases h
    rw [List.forall_mem_cons]
    exact ⟨shows_of_checkRecord hs, ih hss⟩

theorem Entry.sound_of_toTracked {e : Entry} {t : Tracked} (h : e.toTracked = .ok t) : t.Sound := by
  obtain ⟨hcheck, hrecords, -, hchanges⟩ := toTracked_eq_ok_iff.1 h
  obtain ⟨-, hkind⟩ := same_of_toTracked h
  cases checkHistory_eq_ok_iff.1 hcheck with
  | inl hnil =>
    rw [hnil] at hrecords
    apply Tracked.sound_of_history_eq_nil (Except.ok.inj hrecords).symm
  | inr hplace =>
    refine ⟨?_, ?_, ?_⟩
    . intro hzero
      exact absurd (hchanges ▸ hzero) hplace.2
    . intro hkeeps
      exact absurd (hkind ▸ hplace.1) hkeeps
    . rw [hkind]
      apply shows_of_checkRecords hrecords

theorem sound_of_checkEntries {seen : List String} {es : List Entry} {ts : List Tracked}
    (h : checkEntries seen es = .ok ts) : ∀ t ∈ ts, t.Sound := by
  induction es generalizing seen ts with
  | nil =>
    cases h
    simp
  | cons e es ih =>
    obtain ⟨-, t, us, ht, hus, rfl⟩ := checkEntries_cons_eq_ok_iff.1 h
    rw [List.forall_mem_cons]
    exact ⟨Entry.sound_of_toTracked ht, ih hus⟩

theorem sound_of_decode {bs : Bytes} {ts : List Tracked} (h : decode bs = .ok ts) :
    (∀ t ∈ ts, t.Sound) ∧ (ts.map Tracked.name).Nodup := by
  obtain ⟨es, -, hes⟩ := decode_eq_ok_iff.1 h
  exact ⟨sound_of_checkEntries hes, (nodup_names_of_checkEntries hes).1⟩

end Snapshot

/-!
## The metrics of programs
-/

/--
Whether a metric is one that some program comes to have.
-/
inductive Tracked.Reachable : Tracked → Prop where
  | ofMetric (m : Metric) : Reachable (.ofMetric m)
  | apply {t t' : Tracked} {now : Int64} {u : Update} (h : Reachable t)
    (ht : t.apply now u = .ok t') : Reachable t'
  | merge {t other t' : Tracked} (h : Reachable t) (hother : Reachable other)
    (ht : t.merge other = .ok t') : Reachable t'
  | reset {t : Tracked} (h : Reachable t) : Reachable t.reset
  | decode {bs : Bytes} {ts : List Tracked} {t : Tracked} (hts : Snapshot.decode bs = .ok ts)
    (ht : t ∈ ts) : Reachable t

theorem Tracked.Reachable.sound {t : Tracked} (h : t.Reachable) : t.Sound := by
  induction h with
  | ofMetric m => apply sound_ofMetric m
  | apply _ ht ih => exact (ih.apply ht).1
  | merge _ _ ht ih ihother =>
    obtain ⟨-, hkind, rfl⟩ := merge_eq_ok_iff.1 ht
    apply ih.join ihother hkind
  | reset _ _ => apply sound_reset
  | decode hts ht => exact (Snapshot.sound_of_decode hts).1 _ ht

end Metering
