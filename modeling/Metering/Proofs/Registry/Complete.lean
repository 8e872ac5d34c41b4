import Mathlib.Algebra.Group.Pi.Basic
import Mathlib.Data.List.Induction
import Metering.Proofs.Registry.Count
import Metering.Proofs.Registry.Drain
import Metering.Proofs.Registry.Transfer

/-!
This module contains that a program which reads no snapshots but those of its own registries loses no
former value: a gauge has as many of them as it had changes since its last flush. Nothing checks
this, and the snapshots of others need not keep to it.
-/

namespace Metering

theorem Tally.ofNat_toNat (t : Tally) : ofNat t.toNat = t := by
  ext
  rw [toNat_ofNat, Nat.min_eq_left t.toNat_le_max]

namespace Tracked

/--
Whether each change left a former value behind, as far as changes can be counted.
-/
def Complete (t : Tracked) : Prop :=
  t.kind.keepsHistory → t.changes = Tally.ofNat t.history.length

variable {t other : Tracked}

theorem complete_ofMetric (m : Metric) : (ofMetric m).Complete :=
  fun _ => rfl

theorem complete_reset (t : Tracked) : t.reset.Complete :=
  fun _ => rfl

theorem Complete.advance (h : t.Complete) {m : Metric} (hkind : m.kind = t.kind) :
    (t.advance m).Complete := by
  intro hkeeps
  have hkeeps : m.kind.keepsHistory := hkeeps
  have hone : (1 : Tally) = Tally.ofNat 1 := rfl
  simp only [Tracked.advance, if_pos hkeeps, List.length_append, List.length_singleton]
  rw [h (hkind ▸ hkeeps), Tally.ofNat_add, hone]

theorem Complete.join (h : t.Complete) (hother : other.Complete) (hsound : other.Sound)
    (hkind : other.kind = t.kind) : (t.join other).Complete := by
  intro hkeeps
  have hkeeps : other.kind.keepsHistory := hkeeps
  have hchanges : (t.join other).changes = t.changes + other.changes := rfl
  rw [hchanges, hsound.history_join hkind, List.length_append, Tally.ofNat_add,
    ← h (hkind ▸ hkeeps), ← hother hkeeps]

theorem Complete.canonical (h : t.Complete) : t.canonical.Complete := by
  intro hkeeps
  rw [kind_canonical] at hkeeps
  rw [changes_canonical, h hkeeps]
  simp [Tracked.canonical]

end Tracked

namespace Registry

/--
The changes of the metric of a name, none if there is no such metric.
-/
def changesOf (r : Registry) (name : String) : Tally :=
  ((r.find? name).map Tracked.changes).getD 0

/--
Whether a registry has complete histories and the changes that are said of each name, cut off where
a count stops.
-/
structure Exact (r : Registry) (n : String → Nat) : Prop where
  complete : ∀ name t, r.find? name = some t → t.Complete
  changesOf_eq : ∀ name, r.changesOf name = Tally.ofNat (n name)

variable {r other : Registry} {n m : String → Nat} {name : String} {t : Tracked}

theorem changesOf_of_find? (ht : r.find? name = some t) : r.changesOf name = t.changes := by
  rw [changesOf, ht]
  rfl

theorem changesOf_put (r : Registry) (key : String) (t : Tracked) :
    (r.put key t).changesOf name = if key = name then t.changes else r.changesOf name := by
  unfold changesOf
  rw [find?_put]
  split <;> rfl

theorem exact_empty : empty.Exact 0 where
  complete name t ht := by
    rw [find?_empty] at ht
    cases ht
  changesOf_eq name := by
    rw [changesOf, find?_empty]
    rfl

theorem exact_reset (r : Registry) : r.reset.Exact 0 where
  complete name t ht := by
    rw [find?_reset, Option.map_eq_some_iff] at ht
    obtain ⟨s, -, rfl⟩ := ht
    apply s.complete_reset
  changesOf_eq name := by
    rw [changesOf, find?_reset]
    cases r.find? name <;> rfl

theorem Exact.register? (h : r.Exact n) {m : Metric} {r' : Registry}
    (hr : r.register? m = some r') : r'.Exact n := by
  obtain ⟨hfree, rfl⟩ := register?_eq_some_iff.1 hr
  constructor
  . intro name t ht
    rw [find?_insert] at ht
    split at ht
    . cases ht
      apply Tracked.complete_ofMetric
    . apply h.complete name t ht
  . intro name
    rw [← h.changesOf_eq, changesOf, find?_insert]
    split
    . next heq =>
      -- A name that is free has no changes yet.
      rw [changesOf, ← heq, Tracked.name_ofMetric, hfree]
      rfl
    . rfl

theorem Exact.update (h : r.Exact n) {now : Int64} {key : String} {u : Update}
    {r' : Registry} (hr : r.update now key u = .ok r') :
    r'.Exact (Function.update n key (n key + 1)) := by
  obtain ⟨t, t', ht, happly, rfl⟩ := update_eq_ok_iff.1 hr
  obtain ⟨m, hm, rfl⟩ := Tracked.apply_eq_ok_iff.1 happly
  constructor
  . intro name s hs
    rw [find?_put] at hs
    split at hs
    . cases hs
      apply (h.complete key t ht).advance (Tracked.same_of_updated hm).2
    . apply h.complete name s hs
  . intro name
    have hchanges : (t.advance m).changes = t.changes + 1 := rfl
    rw [changesOf_put, Function.update_apply]
    by_cases heq : key = name
    . subst heq
      rw [if_pos rfl, if_pos rfl, hchanges, Tally.ofNat_add, ← h.changesOf_eq,
        changesOf_of_find? ht]
      rfl
    . rw [if_neg heq, if_neg (Ne.symm heq), h.changesOf_eq]

theorem changesOf_merge (h : r.Sound) (hother : other.Sound) (hcompat : r.Compatible other)
    (name : String) : (r.merge other).1.changesOf name = r.changesOf name + other.changesOf name := by
  unfold changesOf
  rw [(h.merge_of_compatible hother hcompat).2.2 name]
  cases r.find? name with
  | none =>
    rw [Option.merge_none_left, Option.map_none, Option.getD_none, Tally.zero_add]
  | some s =>
    cases other.find? name with
    | none =>
      rw [Option.merge_none_right, Option.map_none, Option.getD_none, Tally.add_zero]
    | some t => rfl

theorem Exact.merge (h : r.Exact n) (hother : other.Exact m) (hr : r.Sound) (ho : other.Sound) :
    (r.merge other).1.Exact (if (r.merge other).2.isOk then n + m else n) := by
  by_cases hcompat : r.Compatible other
  . obtain ⟨hok, -, hfind⟩ := hr.merge_of_compatible ho hcompat
    rw [hok]
    constructor
    . intro name u hu
      rw [hfind] at hu
      cases hs : r.find? name with
      | none =>
        rw [hs, Option.merge_none_left] at hu
        apply hother.complete name u hu
      | some s =>
        rw [hs] at hu
        cases ht : other.find? name with
        | none =>
          rw [ht, Option.merge_none_right] at hu
          apply h.complete name u (hs.trans hu)
        | some t =>
          rw [ht, Option.merge_some_some] at hu
          cases hu
          apply (h.complete name s hs).join (hother.complete name t ht) (ho.sound name t ht)
          exact (hcompat name s t hs ht).symm
    . intro name
      rw [changesOf_merge hr ho hcompat, h.changesOf_eq, hother.changesOf_eq]
      exact (Tally.ofNat_add (n name) (m name)).symm
  . obtain ⟨-, _, -, _, _, -, -, -, -, -, hmerge⟩ := ho.merge_of_not_compatible hcompat
    rw [hmerge]
    exact h

theorem complete_foldl_insert {ts : List Tracked} (hts : ∀ t ∈ ts, t.Complete)
    (hr : ∀ name t, r.find? name = some t → t.Complete) :
    ∀ name t, (ts.foldl insert r).find? name = some t → t.Complete := by
  induction ts generalizing r with
  | nil => exact hr
  | cons u ts ih =>
    apply ih (fun t ht => hts t (List.mem_cons_of_mem u ht))
    intro name t ht
    rw [find?_insert] at ht
    split at ht
    . cases ht
      apply hts _ List.mem_cons_self
    . apply hr name t ht

/--
What a registry sends is read as a registry with complete histories if its own ones are.
-/
theorem complete_of_deserialize (h : r.Exact n) (hr : r.Sound) {d : Registry}
    (hd : deserialize r.serialize = .ok d) :
    ∀ name t, d.find? name = some t → t.Complete := by
  rw [hr.deserialize_serialize] at hd
  cases hd
  intro name t ht
  rw [find?_canonical, Option.map_eq_some_iff] at ht
  obtain ⟨s, hs, rfl⟩ := ht
  apply Tracked.Complete.canonical
  apply complete_foldl_insert ?_ exact_empty.complete name s hs
  intro u hu
  apply h.complete u.name u (hr.mem_entries_iff.1 (List.mem_of_mem_filter hu))

end Registry

namespace World

/-!
## The changes of each metric
-/

def told (payload : Bytes) (name : String) : Nat :=
  match Registry.deserialize payload with
  | .ok r => (r.changesOf name).toNat
  | .error _ => 0

/--
The numbers of changes of each metric after an action. One that fails changes nothing.
-/
def recount (w : World) (n : Nat → String → Nat) : Action → Nat → String → Nat
  | .create i => Function.update n i (if (w i).isSome then n i else 0)
  | .deserialize i payload => Function.update n i (if (w i).isSome then n i else told payload)
  | .register _ _ => n
  | .update i now name u =>
    Function.update n i <|
      if w.updates i now name u then Function.update (n i) name (n i name + 1) else n i
  | .merge i j => Function.update n i (if w.merges i j then n i + n j else n i)
  | .absorb i j => Function.update n i (if i ≠ j ∧ w.merges i j then n i + n j else n i)
  | .reset i => Function.update n i 0
  | .drain i => Function.update n i 0

def recountFrom (w : World) (n : Nat → String → Nat) : List Action → Nat → String → Nat
  | [] => n
  | a :: as => recountFrom (w.step a) (w.recount n a) as

/--
How often each metric of each registry was changed since its last flush.
-/
def recounted (as : List Action) : Nat → String → Nat :=
  recountFrom empty (fun _ => 0) as

/--
Whether each snapshot that is read was written before by a registry of the program.
-/
def Own (as : List Action) : Prop :=
  ∀ before i payload after, as = before ++ .deserialize i payload :: after →
    ∃ earlier j r, earlier <+: before ∧ run earlier j = some r ∧ payload = r.serialize

variable {w : World} {n : Nat → String → Nat}

theorem recountFrom_append (w : World) (n : Nat → String → Nat) (as bs : List Action) :
    w.recountFrom n (as ++ bs) = (as.foldl step w).recountFrom (w.recountFrom n as) bs := by
  induction as generalizing w n with
  | nil => rfl
  | cons a as ih => apply ih

theorem recounted_concat (as : List Action) (a : Action) :
    recounted (as ++ [a]) = (run as).recount (recounted as) a := by
  unfold recounted
  rw [recountFrom_append]
  rfl

theorem own_of_append {as bs : List Action} (h : Own (as ++ bs)) : Own as := by
  rintro before i payload after rfl
  apply h before i payload (after ++ bs)
  rw [List.append_assoc, List.cons_append]

theorem exact_merge (h : w.Follows Registry.Exact n) (hw : w.Sound) {i j : Nat} {r s : Registry}
    (hr : w i = some r) (hs : w j = some s) :
    (r.merge s).1.Exact (if w.merges i j then n i + n j else n i) := by
  rw [merges_of_some hr hs]
  apply (h i r hr).merge (h j s hs) (hw i r hr) (hw j s hs)

theorem exact_update (h : w.Follows Registry.Exact n) {i : Nat} {r : Registry}
    (hr : w i = some r) (now : Int64) (name : String) (u : Update) :
    (r.perform now name u).1.Exact
      (if w.updates i now name u then Function.update (n i) name (n i name + 1) else n i) := by
  rw [updates_of_some hr]
  cases hresult : r.update now name u with
  | ok r' =>
    rw [Registry.fst_perform_of_ok hresult]
    apply (h i r hr).update hresult
  | error e =>
    rw [Registry.fst_perform_of_error hresult]
    exact h i r hr

theorem exact_register (h : w.Follows Registry.Exact n) {i : Nat} {r : Registry}
    (hr : w i = some r) (m : Metric) : ((r.register? m).getD r).Exact (n i) := by
  cases hresult : r.register? m with
  | none => exact h i r hr
  | some r' => apply (h i r hr).register? hresult

theorem exact_step (h : w.Follows Registry.Exact n) (hw : w.Sound) {a : Action}
    (hown : ∀ i payload, a = .deserialize i payload → ∀ d, Registry.deserialize payload = .ok d →
      ∀ name t, d.find? name = some t → t.Complete) :
    (w.step a).Follows Registry.Exact (w.recount n a) := by
  cases a with
  | create i => exact h.place Registry.exact_empty
  | deserialize i payload =>
    apply h.deserialize
    intro d hd
    refine ⟨hown i payload rfl d hd, ?_⟩
    intro name
    rw [told, hd, Tally.ofNat_toNat]
  | register i m =>
    have hsame : w.recount n (.register i m) = Function.update n i (n i) :=
      (Function.update_eq_self i n).symm
    rw [hsame]
    apply h.alter fun r hr => exact_register h hr m
  | update i now name u => apply h.alter fun r hr => exact_update h hr now name u
  | merge i j =>
    apply h.merge
    . intro r s hr hs
      apply exact_merge h hw hr hs
    . intro hs
      simp [merges, hs]
  | absorb i j =>
    apply h.absorb hw
    . intro hij r s hr hs
      simpa only [ne_eq, hij, not_false_eq_true, true_and] using exact_merge h hw hr hs
    . intro hij
      simp [hij]
    . intro hs
      simp [merges, hs]
  | reset i => apply h.alter fun r _ => r.exact_reset
  | drain i => apply h.alter fun r _ => r.exact_reset

/--
A snapshot may have been written long before it is read, so all worlds up to the present one are
looked at.
-/
theorem exact_run {as : List Action} (hown : Own as) {before : List Action}
    (hbefore : before <+: as) : (run before).Follows Registry.Exact (recounted before) := by
  induction as using List.reverseRecOn generalizing before with
  | nil =>
    rw [List.prefix_nil.1 hbefore]
    intro i r hr
    cases hr
  | append_singleton as a ih =>
    have hrest := own_of_append hown
    cases List.prefix_concat_iff.1 hbefore with
    | inr hbefore => apply ih hrest hbefore
    | inl heq =>
      rw [heq, run_concat, recounted_concat]
      apply exact_step (ih hrest List.prefix_rfl) (sound_run as)
      rintro i payload rfl d hd
      obtain ⟨earlier, j, r, hearlier, hr, rfl⟩ := hown as i payload [] rfl
      exact Registry.complete_of_deserialize (ih hrest hearlier j r hr) (sound_run earlier j r hr) hd

end World

/-!
## Draining
-/

theorem Registry.length_flatMap_pairs {ts : List Tracked}
    (hkeeps : ∀ t ∈ ts, t.kind.keepsHistory → t.history.length = t.changes.toNat)
    (hnil : ∀ t ∈ ts, ¬t.kind.keepsHistory → t.history = []) :
    (ts.flatMap Tracked.pairs).length
      = ts.length + ((ts.filter (·.kind.keepsHistory)).map (·.changes.toNat)).sum := by
  have hlengths : (ts.filter (·.kind.keepsHistory)).map (·.history.length)
      = (ts.filter (·.kind.keepsHistory)).map (·.changes.toNat) := by
    apply List.map_congr_left
    intro t ht
    exact hkeeps t (List.mem_of_mem_filter ht) (List.mem_filter.1 ht).2
  rw [Tracked.length_flatMap_pairs, sum_length_history hnil, hlengths]

namespace World

/--
In a program that reads no snapshots but those of its own registries, a gauge has as many former
values as it had changes since its last flush, unless the changes are more than can be counted, and
no other metric has any. So a flush of a registry has a pair for each metric and one more for each
change of a gauge.
-/
theorem drained_exactly {as : List Action} (hown : Own as) {i : Nat} {r : Registry}
    (hr : run as i = some r) :
    (∀ (name : String) (t : Tracked), r.map[name]? = some t →
        t.changes.toNat = min (recounted as i name) (2 ^ 64 - 1)
          ∧ (recounted as i name < 2 ^ 64 - 1 → t.kind = .integerGauge ∨ t.kind = .doubleGauge →
            t.history.length = t.changes.toNat)
          ∧ (t.kind = .counter ∨ t.kind = .state → t.history = []))
      ∧ ((∀ t ∈ r.entries, recounted as i t.name < 2 ^ 64 - 1) →
        r.drain.1.length = r.size
          + ((r.entries.filter fun t => t.kind = .integerGauge ∨ t.kind = .doubleGauge).map
              fun t => t.changes.toNat).sum) := by
  have hsound := sound_run as i r hr
  have hexact := exact_run hown List.prefix_rfl i r hr
  have hchanges (name : String) (t : Tracked) (ht : r.find? name = some t) :
      t.changes.toNat = min (recounted as i name) Tally.max := by
    rw [← Registry.changesOf_of_find? ht, hexact.changesOf_eq, Tally.toNat_ofNat]
  have hlength (name : String) (t : Tracked) (ht : r.find? name = some t)
      (hcount : recounted as i name < Tally.max) (hkeeps : t.kind.keepsHistory) :
      t.history.length = t.changes.toNat := by
    have hcomplete := congrArg Tally.toNat (hexact.complete name t ht hkeeps)
    rw [Tally.toNat_ofNat] at hcomplete
    have := hchanges name t ht
    omega
  refine ⟨?_, ?_⟩
  . intro name t ht
    refine ⟨hchanges name t ht, ?_, ?_⟩
    . intro hcount hkind
      exact hlength name t ht hcount (Kind.keepsHistory_iff.2 hkind)
    . intro hkind
      apply (hsound.sound name t ht).history_eq_nil_of_kind
      rintro hkeeps
      cases Kind.keepsHistory_iff.1 hkeeps <;> simp_all
  . intro hcount
    have hpairs : (r.entries.flatMap Tracked.pairs).length = _ := Registry.length_flatMap_pairs
      (fun t ht => hlength t.name t (hsound.mem_entries_iff.1 ht) (hcount t ht))
      (fun t ht => (hsound.sound t.name t (hsound.mem_entries_iff.1 ht)).history_eq_nil_of_kind)
    change (r.entries.flatMap Tracked.pairs).length = _
    rw [hpairs, hsound.length_entries, hsound.size_eq]
    simp only [← Kind.keepsHistory_iff, Bool.decide_eq_true]

/--
A registry that is read from the snapshot of another one, merged with itself and with that other
one.
-/
theorem drained_exactly_queue :
    let before : List Action :=
      [.create 0, .register 0 (.create 0 .integerGauge "queue" ""),
        .register 0 (.create 0 .counter "load" ""), .update 0 1 "queue" (.value (.integer 5)),
        .update 0 2 "queue" (.value (.integer 6)), .update 0 3 "load" (.value (.integer 7))]
    let payload := ((run before 0).getD .empty).serialize
    let as := before ++ [.deserialize 1 payload, .merge 1 1, .merge 1 0]
    ∃ r t, run as 1 = some r ∧ r.map["queue"]? = some t
      ∧ recounted as 1 "queue" = 6
      ∧ t.history.length = 6
      ∧ r.drain.1.length = 8 := by
  intro before payload as
  have hbefore : run before 0 = some ((run before 0).getD .empty) := by
    rw [← Option.get_eq_getD (h := by decide +kernel), Option.some_get]
  have hown : Own as := by
    intro earlier i payload' after h
    -- There is only one place at which a snapshot is read.
    simp [as, before, List.cons_eq_append_iff] at h
    obtain ⟨rfl, ⟨rfl, rfl⟩, -⟩ := h
    exact ⟨before, 0, _, List.prefix_rfl, hbefore, rfl⟩
  have hgauge : recounted as 1 "queue" = 6 := by decide +kernel
  have hbounded : (run as 1).map (fun r =>
      r.entries.all fun t => recounted as 1 t.name < 2 ^ 64 - 1) = some true := by decide +kernel
  have hsum : (run as 1).map (fun r => r.size
      + ((r.entries.filter fun t => t.kind = .integerGauge ∨ t.kind = .doubleGauge).map
          fun t => t.changes.toNat).sum) = some 8 := by decide +kernel
  have hqueue : ((run as 1).bind (·.map["queue"]?)).map Tracked.kind = some .integerGauge := by
    decide +kernel
  obtain ⟨r, hr⟩ := Option.isSome_iff_exists.1 (by decide +kernel : (run as 1).isSome)
  simp only [hr, Option.map_some, Option.bind_some, Option.some.injEq, List.all_eq_true,
    decide_eq_true_eq, Option.map_eq_some_iff] at hbounded hsum hqueue
  obtain ⟨t, ht, hkind⟩ := hqueue
  obtain ⟨hentry, hdrain⟩ := drained_exactly hown hr
  obtain ⟨hchanges, hlength, -⟩ := hentry "queue" t ht
  rw [hgauge] at hchanges hlength
  refine ⟨r, t, hr, ht, hgauge, ?_, (hdrain hbounded).trans hsum⟩
  rw [hlength (by decide) (.inl hkind), hchanges]
  rfl

end World

end Metering
