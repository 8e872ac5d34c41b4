import Metering.Proofs.Metric.Holding
import Metering.Proofs.Traversal
import Metering.Snapshot.Basic

/-!
This module contains which snapshots are decoded, as what, and which fault a snapshot that is not
decoded is refused for.
-/

namespace Metering

namespace Snapshot

namespace Entry

/-!
## One entry
-/

/--
Whether an entry has no history, or one that it may have.
-/
def InPlace (e : Entry) : Prop :=
  e.history = [] ∨ (e.kind = .integerGauge ∨ e.kind = .doubleGauge) ∧ 0 < e.changes.toNat

structure Valid (e : Entry) : Prop where
  inPlace : e.InPlace
  history : ∀ r ∈ e.history, e.kind.Holds r.value
  value : e.kind.Holds e.value

/--
Whether a metric is what an entry says.
-/
structure Tells (e : Entry) (t : Tracked) : Prop where
  kind : t.kind = e.kind
  name : t.name = e.name
  description : t.current.description = e.description
  value : e.kind.Stores e.value t.current.value
  timestamp : t.current.timestamp = e.timestamp
  changes : t.changes = e.changes
  history : List.Forall₂ (fun r s => e.kind.Stores r.value s.value ∧ s.timestamp = r.timestamp)
    e.history t.history

/--
The fault of an entry that comes after others with the names `seen`. Each fault is only told if none
of those before it is there.
-/
inductive Faulty (seen : List String) (e : Entry) : Fault → Prop where
  | repeatedName (hold : e.name ∈ seen) : Faulty seen e (.repeatedName e.name)
  | historyInPlace (hnew : e.name ∉ seen) (hhistory : e.history ≠ [])
    (hkind : e.kind = .counter ∨ e.kind = .state) :
    Faulty seen e (.historyInPlace e.name e.kind)
  | historyWithoutChange (hnew : e.name ∉ seen) (hhistory : e.history ≠ [])
    (hkind : e.kind = .integerGauge ∨ e.kind = .doubleGauge) (hchanges : e.changes.toNat = 0) :
    Faulty seen e (.historyWithoutChange e.name)
  | historyValue (hnew : e.name ∉ seen) (hplace : e.InPlace) {before after : List Record}
    {r : Record} (hhistory : e.history = before ++ r :: after)
    (hbefore : ∀ b ∈ before, e.kind.Holds b.value) (hr : ¬e.kind.Holds r.value) :
    Faulty seen e (.historyValue e.name e.kind r.value)
  | value (hnew : e.name ∉ seen) (hplace : e.InPlace)
    (hhistory : ∀ r ∈ e.history, e.kind.Holds r.value) (hvalue : ¬e.kind.Holds e.value) :
    Faulty seen e (.metric (.invalidValue e.name e.kind e.value))

variable {e : Entry} {t : Tracked} {f : Fault}

theorem checkHistory_eq_ok_iff_inPlace : e.checkHistory = .ok () ↔ e.InPlace := by
  rw [checkHistory_eq_ok_iff, Kind.keepsHistory_iff, ← Nat.pos_iff_ne_zero]
  rfl

theorem checkHistory_eq_error_iff :
    e.checkHistory = .error f ↔
      e.history ≠ []
        ∧ ((e.kind = .counter ∨ e.kind = .state) ∧ f = .historyInPlace e.name e.kind
          ∨ (e.kind = .integerGauge ∨ e.kind = .doubleGauge) ∧ e.changes.toNat = 0
            ∧ f = .historyWithoutChange e.name) := by
  rw [← Kind.keepsHistory_iff, ← Kind.not_keepsHistory_iff]
  unfold checkHistory
  split
  . next hnil => simp [hnil]
  . next hne =>
    split
    . next hkind => simp [hne, hkind, eq_comm]
    . next hkind =>
      have hkind := Decidable.not_not.1 hkind
      split
      . next hzero => simp [hne, hkind, hzero, eq_comm]
      . next hpos => simp [hkind, hpos]

theorem checkRecord_eq_ok_iff {name : String} {k : Kind} {r s : Record} :
    checkRecord name k r = .ok s ↔ k.Stores r.value s.value ∧ s.timestamp = r.timestamp := by
  obtain ⟨value, timestamp⟩ := s
  unfold checkRecord
  rw [← Kind.coerce?_eq_some_iff]
  cases k.coerce? r.value <;> simp [eq_comm]

theorem checkRecord_eq_error_iff {name : String} {k : Kind} {r : Record} :
    checkRecord name k r = .error f ↔ ¬k.Holds r.value ∧ f = .historyValue name k r.value := by
  unfold checkRecord
  rw [← Kind.coerce?_eq_none_iff]
  cases k.coerce? r.value <;> simp [eq_comm]

theorem exists_checkRecord_iff {name : String} {k : Kind} {r : Record} :
    (∃ s, checkRecord name k r = .ok s) ↔ k.Holds r.value := by
  simp only [checkRecord_eq_ok_iff]
  constructor
  . rintro ⟨s, hs, -⟩
    exact ⟨s.value, hs⟩
  . rintro ⟨w, hw⟩
    exact ⟨⟨w, r.timestamp⟩, hw, rfl⟩

theorem toTracked_eq_ok_iff_tells : e.toTracked = .ok t ↔ e.InPlace ∧ e.Tells t := by
  rw [toTracked_eq_ok_iff, checkHistory_eq_ok_iff_inPlace, mapM_eq_ok_iff, Metric.ofParts_eq_ok_iff]
  simp only [checkRecord_eq_ok_iff]
  constructor
  . rintro ⟨hplace, hhistory, ⟨hname, hdescription, htimestamp, hkind, hvalue⟩, hchanges⟩
    exact ⟨hplace, hkind, hname, hdescription, hvalue, htimestamp, hchanges.symm, hhistory⟩
  . rintro ⟨hplace, h⟩
    exact ⟨hplace, h.history, ⟨h.name, h.description, h.timestamp, h.kind, h.value⟩, h.changes.symm⟩

theorem exists_records_iff :
    (∃ ss : List Record, List.Forall₂
        (fun r s => e.kind.Stores r.value s.value ∧ s.timestamp = r.timestamp) e.history ss) ↔
      ∀ r ∈ e.history, e.kind.Holds r.value := by
  simp only [exists_forall₂_iff, ← @checkRecord_eq_ok_iff e.name, exists_checkRecord_iff]

theorem exists_toTracked_iff : (∃ t, e.toTracked = .ok t) ↔ e.Valid := by
  simp only [toTracked_eq_ok_iff_tells]
  constructor
  . rintro ⟨t, hplace, h⟩
    exact ⟨hplace, exists_records_iff.1 ⟨t.history, h.history⟩, _, h.value⟩
  . intro h
    obtain ⟨history, hhistory⟩ := exists_records_iff.2 h.history
    obtain ⟨w, hw⟩ := h.value
    obtain ⟨r, hr, rfl⟩ := Reading.exists_ofValue?_of_stores hw
    have hkind := Reading.kind_of_ofValue? hr
    exact ⟨⟨⟨e.name, e.description, r, e.timestamp⟩, e.changes, history⟩, h.inPlace,
      hkind, rfl, rfl, hw, rfl, rfl, hhistory⟩

theorem toTracked_eq_error_iff {seen : List String} (hnew : e.name ∉ seen) :
    e.toTracked = .error f ↔ Faulty seen e f := by
  unfold toTracked
  simp only [bind_eq_error_iff]
  constructor
  . rintro (hcheck | ⟨_, hcheck, hrecords | ⟨ss, hrecords, hvalue⟩⟩)
    . obtain ⟨hhistory, ⟨hkind, rfl⟩ | ⟨hkind, hchanges, rfl⟩⟩ := checkHistory_eq_error_iff.1 hcheck
      . exact .historyInPlace hnew hhistory hkind
      . exact .historyWithoutChange hnew hhistory hkind hchanges
    . obtain ⟨before, r, after, hhistory, hbefore, hr⟩ := mapM_eq_error_iff.1 hrecords
      simp only [exists_checkRecord_iff] at hbefore
      obtain ⟨hnot, rfl⟩ := checkRecord_eq_error_iff.1 hr
      exact .historyValue hnew (checkHistory_eq_ok_iff_inPlace.1 hcheck) hhistory hbefore hnot
    . have hholds : ∀ r ∈ e.history, e.kind.Holds r.value := by
        simp only [← @exists_checkRecord_iff e.name, ← exists_forall₂_iff]
        exact ⟨ss, mapM_eq_ok_iff.1 hrecords⟩
      split at hvalue
      . next err herr =>
        cases hvalue
        obtain ⟨hnot, rfl⟩ := Metric.ofParts_eq_error_iff.1 herr
        exact .value hnew (checkHistory_eq_ok_iff_inPlace.1 hcheck) hholds hnot
      . cases hvalue
  . intro h
    cases h with
    | repeatedName hold => exact absurd hold hnew
    | historyInPlace _ hhistory hkind =>
      exact .inl (checkHistory_eq_error_iff.2 ⟨hhistory, .inl ⟨hkind, rfl⟩⟩)
    | historyWithoutChange _ hhistory hkind hchanges =>
      exact .inl (checkHistory_eq_error_iff.2 ⟨hhistory, .inr ⟨hkind, hchanges, rfl⟩⟩)
    | historyValue _ hplace hhistory hbefore hr =>
      refine .inr ⟨(), checkHistory_eq_ok_iff_inPlace.2 hplace, .inl ?_⟩
      rw [mapM_eq_error_iff]
      simp only [exists_checkRecord_iff]
      exact ⟨_, _, _, hhistory, hbefore, checkRecord_eq_error_iff.2 ⟨hr, rfl⟩⟩
    | value _ hplace hhistory hvalue =>
      obtain ⟨ss, hss⟩ := exists_records_iff.2 hhistory
      refine .inr ⟨(), checkHistory_eq_ok_iff_inPlace.2 hplace, .inr ⟨ss, ?_, ?_⟩⟩
      . rw [mapM_eq_ok_iff]
        simpa only [checkRecord_eq_ok_iff] using hss
      . rw [Metric.ofParts_eq_error_iff.2 ⟨hvalue, rfl⟩]

end Entry

/-!
## All entries
-/

variable {seen : List String} {e : Entry} {es : List Entry}

def Fresh (seen : List String) (es : List Entry) : Prop :=
  (es.map Entry.name).Nodup ∧ ∀ e ∈ es, e.name ∉ seen

theorem fresh_cons_iff : Fresh seen (e :: es) ↔ e.name ∉ seen ∧ Fresh (e.name :: seen) es := by
  unfold Fresh
  rw [List.map_cons, List.nodup_cons, List.forall_mem_cons]
  constructor
  . rintro ⟨⟨hnew, hnodup⟩, hseen, hrest⟩
    refine ⟨hseen, hnodup, ?_⟩
    intro d hd hmem
    cases List.mem_cons.1 hmem with
    | inl heq => exact hnew (heq ▸ List.mem_map_of_mem hd)
    | inr hmem => exact hrest d hd hmem
  . rintro ⟨hseen, hnodup, hrest⟩
    refine ⟨⟨?_, hnodup⟩, hseen, fun d hd hmem => hrest d hd (List.mem_cons_of_mem _ hmem)⟩
    intro hmem
    obtain ⟨d, hd, hname⟩ := List.mem_map.1 hmem
    exact hrest d hd (hname ▸ List.mem_cons_self)

theorem checkEntries_eq_ok_iff {ts : List Tracked} :
    checkEntries seen es = .ok ts ↔
      Fresh seen es ∧ List.Forall₂ (fun e t => e.toTracked = .ok t) es ts := by
  induction es generalizing seen ts with
  | nil => simp [checkEntries, Fresh, eq_comm]
  | cons e es ih =>
    rw [checkEntries_cons_eq_ok_iff, fresh_cons_iff, List.forall₂_cons_left_iff]
    simp only [ih]
    constructor
    . rintro ⟨hseen, t, us, ht, ⟨hfresh, hus⟩, rfl⟩
      exact ⟨⟨hseen, hfresh⟩, t, us, ht, hus, rfl⟩
    . rintro ⟨⟨hseen, hfresh⟩, t, us, ht, hus, rfl⟩
      exact ⟨hseen, t, us, ht, ⟨hfresh, hus⟩, rfl⟩

theorem faulty_iff {f : Fault} :
    e.Faulty seen f ↔
      e.name ∈ seen ∧ f = .repeatedName e.name ∨ e.name ∉ seen ∧ e.toTracked = .error f := by
  by_cases hseen : e.name ∈ seen
  . simp only [hseen, true_and, not_true, false_and, or_false]
    constructor
    . intro h
      cases h with
      | repeatedName _ => rfl
      | _ => contradiction
    . rintro rfl
      exact .repeatedName hseen
  . simp [hseen, Entry.toTracked_eq_error_iff hseen]

theorem checkEntries_cons_eq_error_iff {f : Fault} :
    checkEntries seen (e :: es) = .error f ↔
      e.Faulty seen f ∨ e.name ∉ seen ∧ e.Valid ∧ checkEntries (e.name :: seen) es = .error f := by
  rw [checkEntries, faulty_iff, ← Entry.exists_toTracked_iff]
  split
  . next hold => simp [hold, eq_comm]
  . next hnew =>
    cases e.toTracked with
    | error f' => simp [hnew]
    | ok t => simp [hnew, map_eq_error_iff]

/--
The fault of a list is that of its first entry that has one.
-/
theorem checkEntries_eq_error_iff {f : Fault} :
    checkEntries seen es = .error f ↔
      ∃ before e after, es = before ++ e :: after ∧ Fresh seen before ∧ (∀ b ∈ before, b.Valid)
        ∧ e.Faulty (before.map Entry.name ++ seen) f := by
  induction es generalizing seen with
  | nil => simp [checkEntries]
  | cons e es ih =>
    -- The names that were seen are the same whichever way they are put together.
    have hseen (before : List Entry) (d : Entry) :
        d.Faulty (before.map Entry.name ++ e.name :: seen) f ↔
          d.Faulty ((e :: before).map Entry.name ++ seen) f := by
      rw [faulty_iff, faulty_iff, List.perm_middle.mem_iff]
      rfl
    rw [checkEntries_cons_eq_error_iff, ih]
    constructor
    . rintro (hfault | ⟨hnew, hvalid, before, d, after, rfl, hfresh, hbefore, hfault⟩)
      . exact ⟨[], e, es, rfl, by simp [Fresh], by simp, hfault⟩
      . exact ⟨e :: before, d, after, rfl, fresh_cons_iff.2 ⟨hnew, hfresh⟩,
          List.forall_mem_cons.2 ⟨hvalid, hbefore⟩, (hseen before d).1 hfault⟩
    . rintro ⟨before, d, after, heq, hfresh, hbefore, hfault⟩
      cases before with
      | nil =>
        cases heq
        exact .inl hfault
      | cons b before =>
        cases heq
        obtain ⟨hnew, hfresh⟩ := fresh_cons_iff.1 hfresh
        obtain ⟨hvalid, hbefore⟩ := List.forall_mem_cons.1 hbefore
        exact .inr ⟨hnew, hvalid, before, d, after, rfl, hfresh, hbefore, (hseen before d).2 hfault⟩

/-!
## Decoding
-/

/--
The text of a fault begins with the name of the entry that has it.
-/
theorem Entry.Faulty.message_eq {f : Fault} (h : e.Faulty seen f) :
    ∃ rest, f.message = "metric " ++ MetricError.quoteName e.name ++ rest := by
  cases h with
  | repeatedName _ => exact ⟨_, rfl⟩
  | historyWithoutChange _ _ _ _ => exact ⟨_, rfl⟩
  | _ =>
    simp only [Fault.message, MetricError.message, String.append_assoc, String.append_right_inj]
    exact ⟨_, rfl⟩

theorem decode_eq_error_iff {bs : Bytes} (hes : entries? bs = some es) {err : SnapshotError} :
    decode bs = .error err ↔ ∃ f, checkEntries [] es = .error f ∧ err = .invalid f := by
  unfold decode
  rw [hes]
  dsimp only
  cases checkEntries [] es with
  | error f => simp [eq_comm]
  | ok ts => simp

/--
Bytes that are not a list of entries are not decoded. Entries are, if they have names of their own
and each of them is valid, and then they become the metrics that they tell of, in their order. Else
the error is the first fault of the first entry that has one.
-/
theorem decoded_exactly (bs : Bytes) :
    (entries? bs = none → decode bs = .error .decode)
      ∧ ∀ es, entries? bs = some es →
        ((∃ ts, decode bs = .ok ts) ↔ (es.map Entry.name).Nodup ∧ ∀ e ∈ es, e.Valid)
          ∧ (∀ ts, decode bs = .ok ts → List.Forall₂ Entry.Tells es ts)
          ∧ ∀ err, decode bs = .error err ↔
            ∃ before e after f, es = before ++ e :: after
              ∧ (before.map Entry.name).Nodup ∧ (∀ b ∈ before, b.Valid)
              ∧ e.Faulty (before.map Entry.name) f ∧ err = .invalid f := by
  constructor
  . intro hnone
    unfold decode
    rw [hnone]
  . intro es hes
    have hfresh (ds : List Entry) : Fresh [] ds ↔ (ds.map Entry.name).Nodup := by simp [Fresh]
    refine ⟨?_, ?_, ?_⟩
    . simp only [decode_eq_ok_iff, hes, Option.some.injEq, exists_eq_left', checkEntries_eq_ok_iff,
        exists_and_left, exists_forall₂_iff, Entry.exists_toTracked_iff, hfresh]
    . intro ts hts
      obtain ⟨es', hes', hcheck⟩ := decode_eq_ok_iff.1 hts
      rw [hes] at hes'
      cases hes'
      apply (checkEntries_eq_ok_iff.1 hcheck).2.imp
      intro e t ht
      apply (Entry.toTracked_eq_ok_iff_tells.1 ht).2
    . intro err
      rw [decode_eq_error_iff hes]
      simp only [checkEntries_eq_error_iff, hfresh, List.append_nil]
      constructor
      . rintro ⟨f, ⟨before, e, after, heq, hnodup, hbefore, hfault⟩, rfl⟩
        exact ⟨before, e, after, f, heq, hnodup, hbefore, hfault, rfl⟩
      . rintro ⟨before, e, after, f, heq, hnodup, hbefore, hfault, rfl⟩
        exact ⟨f, ⟨before, e, after, heq, hnodup, hbefore, hfault⟩, rfl⟩

/--
A gauge with a whole number as its value, first alone and then before a counter of the same name
that also has a history without a change and a value that no counter holds.
-/
theorem decoded_exactly_load :
    let first : Entry := ⟨.doubleGauge, "load", "", .integer 4, 7, 1, [⟨.text "NaN", 6⟩]⟩
    let second : Entry := ⟨.counter, "load", "", .text "ten", 8, 0, [⟨.integer 1, 5⟩]⟩
    let one := Bytes.ofString "[[\"double_gauge\",\"load\",\"\",4,7,1,[[\"NaN\",6]]]]"
    let two := Bytes.ofString <|
      "[[\"double_gauge\",\"load\",\"\",4,7,1,[[\"NaN\",6]]],"
        ++ "[\"counter\",\"load\",\"\",\"ten\",8,0,[[1,5]]]]"
    entries? one = some [first] ∧ entries? two = some [first, second]
      ∧ (∃ t, decode one = .ok [t] ∧ first.Tells t)
      ∧ decode two = .error (.invalid (.repeatedName "load")) := by
  intro first second one two
  have hone : entries? one = some [first] := by decide +kernel
  have htwo : entries? two = some [first, second] := by decide +kernel
  have hvalid : first.Valid := by
    refine ⟨.inr ⟨.inr rfl, by decide⟩, ?_, _, .whole 4⟩
    intro r hr
    rw [List.mem_singleton.1 hr]
    exact ⟨_, .nan⟩
  obtain ⟨hok, htells, -⟩ := (decoded_exactly one).2 _ hone
  obtain ⟨-, -, herror⟩ := (decoded_exactly two).2 _ htwo
  obtain ⟨ts, hts⟩ := hok.2 ⟨by decide, by simpa using hvalid⟩
  obtain ⟨t, _, htell, hnil, rfl⟩ := List.forall₂_cons_left_iff.1 (htells ts hts)
  cases hnil
  refine ⟨hone, htwo, ⟨t, hts, htell⟩, ?_⟩
  rw [herror]
  exact ⟨[first], second, [], _, rfl, by decide, by simpa using hvalid,
    .repeatedName (by decide), rfl⟩

end Snapshot

end Metering
