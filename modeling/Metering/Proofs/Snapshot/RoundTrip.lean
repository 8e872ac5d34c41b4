import Metering.Proofs.Snapshot.Wire
import Metering.Proofs.Tracked.Sound

/-!
This module contains that the metrics that some program comes to have are encoded as a snapshot from
which the same metrics are decoded, apart from the patterns of what is not a number. Only a name
that is repeated keeps a snapshot from being decoded.
-/

namespace Metering

/-!
## Canonical metrics
-/

def Record.canonical (r : Record) : Record :=
  ⟨r.value.canonical, r.timestamp⟩

def Metric.canonical (m : Metric) : Metric :=
  { m with reading := m.reading.canonical }

/--
The metric with one pattern for all values, former ones included, that are not numbers.
-/
def Tracked.canonical (t : Tracked) : Tracked :=
  ⟨t.current.canonical, t.changes, t.history.map Record.canonical⟩

theorem Kind.coerce?_written {k : Kind} {v : Value} (h : k.Shows v) :
    k.coerce? v.written = some v.canonical := by
  obtain ⟨r, rfl, rfl⟩ := h
  rw [coerce?_eq, Reading.ofValue?_written, Option.map_some, Reading.value_canonical]

namespace Snapshot

theorem Entry.checkRecord_written {k : Kind} {r : Record} (h : k.Shows r.value) (name : String) :
    checkRecord name k r.written = .ok r.canonical := by
  unfold checkRecord Record.written
  dsimp only
  rw [Kind.coerce?_written h]
  rfl

theorem Entry.toTracked_written {t : Tracked} (h : t.Sound) :
    (ofTracked t).written.toTracked = .ok t.canonical := by
  rw [toTracked_eq_ok_iff]
  refine ⟨?_, ?_, ?_, rfl⟩
  -- A sound metric has a history only where the history is in its place.
  . rw [checkHistory_eq_ok_iff]
    by_cases hnil : t.history = []
    . left
      simp [written, ofTracked, hnil]
    . right
      constructor
      . apply Decidable.byContradiction
        intro hkeeps
        apply hnil (h.history_eq_nil_of_kind hkeeps)
      . intro hzero
        apply hnil (h.history_eq_nil_of_changes hzero)
  . apply mapM_map_eq_pure
    intro r hr
    apply checkRecord_written (h.shows r hr)
  . have hreading := Reading.ofValue?_written t.current.reading
    rw [Metric.ofParts_eq]
    simp only [written, ofTracked, Tracked.kind, Metric.kind, Metric.value] at hreading ⊢
    rw [hreading]
    rfl

theorem checkEntries_written {seen : List String} {ts : List Tracked} (h : ∀ t ∈ ts, t.Sound)
    (hnodup : (ts.map Tracked.name).Nodup) (hseen : ∀ t ∈ ts, t.name ∉ seen) :
    checkEntries seen (ts.map fun t => (Entry.ofTracked t).written)
      = .ok (ts.map Tracked.canonical) := by
  induction ts generalizing seen with
  | nil => rfl
  | cons t ts ih =>
    rw [List.map_cons, List.nodup_cons] at hnodup
    have hname : (Entry.ofTracked t).written.name = t.name := rfl
    have hrest : ∀ u ∈ ts, u.name ∉ t.name :: seen := by
      intro u hu hmem
      cases List.mem_cons.1 hmem with
      | inl heq => apply hnodup.1 (heq ▸ List.mem_map_of_mem hu)
      | inr hmem => apply hseen u (List.mem_cons_of_mem t hu) hmem
    rw [List.map_cons]
    unfold checkEntries
    rw [hname, if_neg (hseen t List.mem_cons_self),
      Entry.toTracked_written (h t List.mem_cons_self)]
    dsimp only
    rw [ih (fun u hu => h u (List.mem_cons_of_mem t hu)) hnodup.2 hrest]
    rfl

theorem checkEntries_written_of_repeated {seen : List String} {ts : List Tracked}
    (h : ∀ t ∈ ts, t.Sound) (hseen : seen.Nodup)
    (hrepeated : ¬(ts.map Tracked.name ++ seen).Nodup) :
    ∃ us t vs, ts = us ++ t :: vs ∧ t.name ∈ us.map Tracked.name ++ seen
      ∧ checkEntries seen (ts.map fun t => (Entry.ofTracked t).written)
        = .error (.repeatedName t.name) := by
  induction ts generalizing seen with
  | nil => exact absurd hseen hrepeated
  | cons t ts ih =>
    have hname : (Entry.ofTracked t).written.name = t.name := rfl
    rw [List.map_cons]
    unfold checkEntries
    rw [hname]
    split
    . next hold => exact ⟨[], t, ts, rfl, hold, rfl⟩
    . next hnew =>
      -- The name of the first metric is one of those that were seen from now on.
      have hmoved : ¬(ts.map Tracked.name ++ t.name :: seen).Nodup := by
        rwa [List.perm_middle.nodup_iff]
      obtain ⟨us, u, vs, rfl, hu, herror⟩ := ih (fun v hv => h v (List.mem_cons_of_mem t hv))
        (List.nodup_cons.2 ⟨hnew, hseen⟩) hmoved
      refine ⟨t :: us, u, vs, rfl, ?_, ?_⟩
      . rwa [List.map_cons, List.cons_append, ← List.perm_middle.mem_iff]
      . rw [Entry.toTracked_written (h t List.mem_cons_self), herror]
        rfl

theorem entries?_encode (ts : List Tracked) :
    entries? (encode ts) = some (ts.map fun t => (Entry.ofTracked t).written) := by
  have hwellFormed : Json.WellFormed (.array (ts.map fun t => (Entry.ofTracked t).toJson)) := by
    apply Json.wellFormed_array
    intro j hj
    obtain ⟨t, -, rfl⟩ := List.mem_map.1 hj
    exact (Entry.ofTracked t).wellFormed_toJson
  unfold entries? encode
  rw [Json.ofBytes?_bytes hwellFormed, Option.bind_some]
  apply mapM_map_eq_pure
  intro t _
  apply Entry.ofJson?_toJson

/--
Whatever metrics some program has, what it encodes of them is decoded as the same metrics in the
same order, but for the patterns of what is not a number, if they have names of their own. Else it
is refused because of a name that stands there before.
-/
theorem decode_encode {ts : List Tracked} (h : ∀ t ∈ ts, t.Reachable) :
    ((ts.map Tracked.name).Nodup → decode (encode ts) = .ok (ts.map Tracked.canonical))
      ∧ (¬(ts.map Tracked.name).Nodup →
        ∃ us t vs, ts = us ++ t :: vs ∧ t.name ∈ us.map Tracked.name
          ∧ decode (encode ts) = .error (.invalid (.repeatedName t.name))) := by
  have hsound : ∀ t ∈ ts, t.Sound := fun t ht => (h t ht).sound
  unfold decode
  rw [entries?_encode]
  dsimp only
  constructor
  . intro hnodup
    rw [checkEntries_written hsound hnodup fun _ _ => List.not_mem_nil]
  . intro hrepeated
    obtain ⟨us, t, vs, hts, ht, herror⟩ :=
      checkEntries_written_of_repeated hsound List.nodup_nil (by rwa [List.append_nil])
    rw [herror]
    exact ⟨us, t, vs, hts, by rwa [List.append_nil] at ht, rfl⟩

/--
A gauge that went from what is not a number to minus zero, and a state with the text of the former.
-/
theorem decode_encode_not_a_number :
    let m : Metric := ⟨"load", "", .doubleGauge ⟨0xFFF8000000000001⟩, 5⟩
    let m' : Metric := ⟨"load", "", .doubleGauge (.ofMagnitude true 0), 6⟩
    let t : Tracked := (Tracked.ofMetric m).advance m'
    let u : Tracked := .ofMetric ⟨"mode", "", .state "NaN", 7⟩
    t.Reachable ∧ u.Reachable
      ∧ decode (encode [t, u]) = .ok [⟨m', 1, [⟨.double .nan, 5⟩]⟩, u]
      ∧ ∃ name, decode (encode [t, u, t]) = .error (.invalid (.repeatedName name)) := by
  intro m m' t u
  have hupdate : (Tracked.ofMetric m).apply 0 (.replace m') = .ok t := rfl
  have ht : t.Reachable := .apply (.ofMetric m) hupdate
  have hu : u.Reachable := .ofMetric _
  have htwo : ∀ v ∈ [t, u], v.Reachable := by simp [ht, hu]
  have hthree : ∀ v ∈ [t, u, t], v.Reachable := by simp [ht, hu]
  obtain ⟨hok, -⟩ := decode_encode htwo
  obtain ⟨-, hrepeated⟩ := decode_encode hthree
  obtain ⟨-, v, -, -, -, herror⟩ := hrepeated (by decide)
  refine ⟨ht, hu, ?_, v.name, herror⟩
  rw [hok (by decide)]
  rfl

end Snapshot

end Metering
