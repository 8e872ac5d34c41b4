import Mathlib.Algebra.GroupWithZero.Nat
import Mathlib.Data.List.Induction
import Mathlib.Data.List.Nodup
import Mathlib.Data.List.Perm.Basic
import Metering.Outbox

/-!
This module contains an account of deliveries. Batches are numbered in the order of their dispatch,
and the account says which of them are in flight and how far each delivery has come. An outbox
forgets the batches that it is done with, the account does not.
-/

namespace Metering

namespace Stage

/--
What a delivery at a stage has been through.
-/
def past : Stage → List Stage
  | waiting => []
  | handed => [handed]
  | released => [handed, released]

/--
Whether a delivery goes on from one stage to another one.
-/
def Before (prev next : Stage) : Prop :=
  next ∉ prev.past ∧ next.past = prev.past ++ [next]

theorem waiting_before_handed : Before waiting handed := by
  unfold Before
  decide

theorem handed_before_released : Before handed released := by
  unfold Before
  decide

end Stage

namespace Station

/--
A station that takes note of a delivery that has come to a stage.
-/
def reach (s : Station) (b : Batch) : Stage → Station
  | .waiting => s
  | .handed => { s with handed := s.handed ++ [b] }
  | .released => { s with released := s.released + 1 }

theorem handed_reach (s : Station) (b : Batch) (stage : Stage) :
    (s.reach b stage).handed = s.handed ++ if stage = .handed then [b] else [] := by
  cases stage <;> simp [reach]

theorem released_reach (s : Station) (b : Batch) (stage : Stage) :
    (s.reach b stage).released = s.released + if stage = .released then 1 else 0 := by
  cases stage <;> rfl

end Station

namespace Outbox

/--
An outbox of which a dispatch has come to a stage at a sink.
-/
def reach (o : Outbox) (i p : Nat) (d : Dispatch) (s : Station) (stage : Stage) : Outbox :=
  ⟨o.stations.set p (s.reach d.batch stage),
    o.inFlight.set i { d with stages := d.stages.set p stage }⟩

variable {o o' : Outbox} {i p : Nat} {lines : List Line}

theorem exists_of_hand? (h : o.hand? i p = some (o', lines)) :
    ∃ d s, o.inFlight[i]? = some d ∧ o.stations[p]? = some s ∧ d.stages[p]? = some .waiting
      ∧ o' = o.reach i p d s .handed := by
  unfold hand? at h
  split at h
  . next d s hd hs =>
    split at h
    . next hstage =>
      cases h
      exact ⟨d, s, hd, hs, hstage, rfl⟩
    . cases h
  . cases h

theorem exists_of_release? {outcome : Outcome} (h : o.release? i p outcome = some (o', lines)) :
    ∃ d s, o.inFlight[i]? = some d ∧ o.stations[p]? = some s ∧ d.stages[p]? = some .handed
      ∧ o' = o.reach i p d s .released := by
  unfold release? at h
  split at h
  . next d s hd hs =>
    split at h
    . next hstage =>
      cases h
      exact ⟨d, s, hd, hs, hstage, rfl⟩
    . cases h
  . cases h

/--
Where all deliveries have ended, none of them goes on.
-/
theorem stage_of_idle (h : o.idle) {d : Dispatch} {stage : Stage} (hd : o.inFlight[i]? = some d)
    (hstage : d.stages[p]? = some stage) : stage = .released := by
  have hfinished := List.all_eq_true.1 h d (List.mem_of_getElem? hd)
  exact of_decide_eq_true (List.all_eq_true.1 hfinished stage (List.mem_of_getElem? hstage))

theorem hand?_of_idle (h : o.idle) : o.hand? i p = none := by
  rw [Option.eq_none_iff_forall_ne_some]
  rintro ⟨o', lines⟩ hhand
  obtain ⟨d, s, hd, -, hstage, -⟩ := exists_of_hand? hhand
  cases stage_of_idle h hd hstage

theorem release?_of_idle {outcome : Outcome} (h : o.idle) : o.release? i p outcome = none := by
  rw [Option.eq_none_iff_forall_ne_some]
  rintro ⟨o', lines⟩ hrelease
  obtain ⟨d, s, hd, -, hstage, -⟩ := exists_of_release? hrelease
  cases stage_of_idle h hd hstage

end Outbox

/--
What a delivery of a batch to a sink has come to. Both are told by their numbers.
-/
structure Delivery where
  batch : Nat
  sink : Nat
  stage : Stage
  deriving DecidableEq

/--
The batches in flight, and what became of the deliveries.
-/
structure Journal where
  held : List Nat
  log : List Delivery

namespace Journal

def empty : Journal :=
  ⟨[], []⟩

def reach (j : Journal) (i p : Nat) (stage : Stage) : Journal :=
  ⟨j.held, j.log ++ (j.held[i]?.map fun k => ⟨k, p, stage⟩).toList⟩

def tidy (j : Journal) (o : Outbox) : Journal :=
  ⟨((j.held.zip o.inFlight).filter fun (_, d) => !d.finished).map Prod.fst, j.log⟩

def dispatch (j : Journal) (k : Nat) : Journal :=
  ⟨j.held ++ [k], j.log⟩

/--
The batches whose deliveries to a sink came to a stage.
-/
def reached (bs : List Batch) (p : Nat) (stage : Stage) (log : List Delivery) : List Batch :=
  (log.filter fun x => x.sink = p ∧ x.stage = stage).filterMap fun x => bs[x.batch]?

/--
Whether the log has of a batch what its dispatch says of it.
-/
def Describes (log : List Delivery) (k : Nat) (d : Dispatch) : Prop :=
  ∀ p stage, ⟨k, p, stage⟩ ∈ log ↔ ∃ now, d.stages[p]? = some now ∧ stage ∈ now.past

/--
Whether an account is that of an outbox after some batches were dispatched. The deliveries of a batch
that is not in flight have all ended.
-/
structure Tracks (j : Journal) (o : Outbox) (bs : List Batch) : Prop where
  length_held : j.held.length = o.inFlight.length
  nodup_held : j.held.Nodup
  nodup_log : j.log.Nodup
  lt_of_mem_log : ∀ x ∈ j.log, x.batch < bs.length ∧ x.sink < o.stations.length
  batch : ∀ k d, (k, d) ∈ j.held.zip o.inFlight → bs[k]? = some d.batch
  stages : ∀ k d, (k, d) ∈ j.held.zip o.inFlight → d.stages.length = o.stations.length
  describes : ∀ k d, (k, d) ∈ j.held.zip o.inFlight → Describes j.log k d
  ended : ∀ k p, k < bs.length → k ∉ j.held → p < o.stations.length →
    ∀ stage ∈ Stage.released.past, ⟨k, p, stage⟩ ∈ j.log
  handed : ∀ p s, o.stations[p]? = some s → s.handed = reached bs p .handed j.log
  released : ∀ p s, o.stations[p]? = some s → s.released = (reached bs p .released j.log).length

variable {j : Journal} {o o' : Outbox} {bs : List Batch}

theorem tracks_start {stations : List Station}
    (hnew : ∀ s ∈ stations, s.handed = [] ∧ s.released = 0) :
    empty.Tracks (.ofStations stations) [] where
  length_held := rfl
  nodup_held := .nil
  nodup_log := .nil
  lt_of_mem_log := nofun
  batch := nofun
  stages := nofun
  describes := nofun
  ended := nofun
  handed _ s hs := (hnew s (List.mem_of_getElem? hs)).1
  released _ s hs := (hnew s (List.mem_of_getElem? hs)).2

theorem Tracks.exists_held (h : j.Tracks o bs) {i : Nat} {d : Dispatch}
    (hd : o.inFlight[i]? = some d) :
    ∃ k, j.held[i]? = some k ∧ (k, d) ∈ j.held.zip o.inFlight := by
  have hi : i < j.held.length := by
    rw [h.length_held]
    exact (List.getElem?_eq_some_iff.1 hd).1
  refine ⟨j.held[i], List.getElem?_eq_getElem hi, ?_⟩
  exact List.mem_iff_getElem?.2 ⟨i, List.getElem?_zip_eq_some.2 ⟨List.getElem?_eq_getElem hi, hd⟩⟩

theorem Tracks.exists_dispatch (h : j.Tracks o bs) {k : Nat} (hk : k ∈ j.held) :
    ∃ d, (k, d) ∈ j.held.zip o.inFlight := by
  obtain ⟨i, hi⟩ := List.mem_iff_getElem?.1 hk
  have hlt : i < o.inFlight.length := by
    rw [← h.length_held]
    exact (List.getElem?_eq_some_iff.1 hi).1
  refine ⟨o.inFlight[i], ?_⟩
  exact List.mem_iff_getElem?.2 ⟨i, List.getElem?_zip_eq_some.2 ⟨hi, List.getElem?_eq_getElem hlt⟩⟩

theorem Tracks.lt_of_mem_held (h : j.Tracks o bs) {k : Nat} (hk : k ∈ j.held) :
    k < bs.length := by
  obtain ⟨d, hd⟩ := h.exists_dispatch hk
  exact (List.getElem?_eq_some_iff.1 (h.batch k d hd)).1

/-!
## Progress of deliveries
-/

theorem reached_concat (bs : List Batch) (p : Nat) (stage : Stage) (log : List Delivery)
    {x : Delivery} {b : Batch} (hb : bs[x.batch]? = some b) :
    reached bs p stage (log ++ [x])
      = reached bs p stage log ++ if x.sink = p ∧ x.stage = stage then [b] else [] := by
  unfold reached
  rw [List.filter_append, List.filterMap_append]
  congr 1
  split
  . next hx => simp [hx, hb]
  . next hx => simp [hx]

theorem mem_zip_set {α : Type} {ks : List Nat} {ds : List α} {i k k' : Nat} {d d' : α}
    (hnodup : ks.Nodup) (hk : ks[i]? = some k) (h : (k', d) ∈ ks.zip (ds.set i d')) :
    (k' = k ∧ d = d') ∨ (k' ≠ k ∧ (k', d) ∈ ks.zip ds) := by
  obtain ⟨n, hn⟩ := List.mem_iff_getElem?.1 h
  obtain ⟨hk', hd⟩ := List.getElem?_zip_eq_some.1 hn
  dsimp only at hk' hd
  by_cases hi : i = n
  . subst hi
    left
    rw [List.getElem?_set_self'] at hd
    obtain ⟨-, -, rfl⟩ := Option.map_eq_some_iff.1 hd
    exact ⟨Option.some.inj (hk'.symm.trans hk), rfl⟩
  . right
    rw [List.getElem?_set_ne hi] at hd
    refine ⟨?_, List.mem_iff_getElem?.2 ⟨n, List.getElem?_zip_eq_some.2 ⟨hk', hd⟩⟩⟩
    -- A number does not occur twice.
    rintro rfl
    apply hi
    exact (List.getElem?_inj (List.getElem?_eq_some_iff.1 hk).1 hnodup).1 (hk.trans hk'.symm)

theorem Describes.reach {log : List Delivery} {k p : Nat} {d : Dispatch} {prev next : Stage}
    (h : Describes log k d) (hprev : d.stages[p]? = some prev) (hnext : prev.Before next) :
    Describes (log ++ [⟨k, p, next⟩]) k { d with stages := d.stages.set p next } := by
  intro q stage
  rw [List.mem_append, List.mem_singleton, h q stage, List.getElem?_set]
  obtain ⟨hp, hprev⟩ := List.getElem?_eq_some_iff.1 hprev
  by_cases hq : p = q
  . subst hq
    simp [hp, hprev, hnext.2]
  . simp [hq, Ne.symm hq]

theorem Describes.of_ne {log : List Delivery} {k : Nat} {d : Dispatch} {x : Delivery}
    (h : Describes log k d) (hx : k ≠ x.batch) : Describes (log ++ [x]) k d := by
  intro q stage
  rw [List.mem_append, List.mem_singleton, ← h q stage, or_iff_left]
  rintro rfl
  exact hx rfl

/--
A delivery that goes on is told in both accounts.
-/
theorem Tracks.reach (h : j.Tracks o bs) {i p : Nat} {d : Dispatch} {s : Station}
    (hd : o.inFlight[i]? = some d) (hs : o.stations[p]? = some s) {prev next : Stage}
    (hprev : d.stages[p]? = some prev) (hnext : prev.Before next) :
    (j.reach i p next).Tracks (o.reach i p d s next) bs := by
  obtain ⟨k, hk, hmem⟩ := h.exists_held hd
  have hb := h.batch k d hmem
  have hlog : (j.reach i p next).log = j.log ++ [⟨k, p, next⟩] := by
    rw [Journal.reach, hk]
    rfl
  have hlength : (o.reach i p d s next).stations.length = o.stations.length := List.length_set
  have hstation (q : Nat) (t : Station) (ht : (o.reach i p d s next).stations[q]? = some t) :
      q = p ∧ t = s.reach d.batch next ∨ q ≠ p ∧ o.stations[q]? = some t := by
    by_cases hq : q = p
    . subst hq
      have hself := List.getElem?_set_self (a := s.reach d.batch next)
        (List.getElem?_eq_some_iff.1 hs).1
      exact .inl ⟨rfl, Option.some.inj (ht.symm.trans hself)⟩
    . exact .inr ⟨hq, (List.getElem?_set_ne (Ne.symm hq)).symm.trans ht⟩
  constructor
  . exact h.length_held.trans List.length_set.symm
  . exact h.nodup_held
  . rw [hlog, ← List.concat_eq_append]
    apply h.nodup_log.concat
    rw [h.describes k d hmem p next, hprev]
    simpa using hnext.1
  . intro x hx
    rw [hlength]
    rw [hlog] at hx
    cases List.mem_append.1 hx with
    | inl hx => apply h.lt_of_mem_log x hx
    | inr hx =>
      rw [List.mem_singleton.1 hx]
      exact ⟨(List.getElem?_eq_some_iff.1 hb).1, (List.getElem?_eq_some_iff.1 hs).1⟩
  . intro k' d' hmem'
    obtain ⟨rfl, rfl⟩ | ⟨-, hmem'⟩ := mem_zip_set h.nodup_held hk hmem'
    . exact hb
    . apply h.batch k' d' hmem'
  . intro k' d' hmem'
    rw [hlength]
    obtain ⟨rfl, rfl⟩ | ⟨-, hmem'⟩ := mem_zip_set h.nodup_held hk hmem'
    . rw [List.length_set, h.stages _ d hmem]
    . apply h.stages k' d' hmem'
  . intro k' d' hmem'
    rw [hlog]
    obtain ⟨rfl, rfl⟩ | ⟨hne, hmem'⟩ := mem_zip_set h.nodup_held hk hmem'
    . apply (h.describes k' d hmem).reach hprev hnext
    . apply (h.describes k' d' hmem').of_ne hne
  . intro k' q hk' hheld hq stage hstage
    rw [hlength] at hq
    rw [hlog]
    exact List.mem_append_left _ (h.ended k' q hk' hheld hq stage hstage)
  . intro q t ht
    rw [hlog, reached_concat bs q .handed j.log hb]
    obtain ⟨rfl, rfl⟩ | ⟨hq, ht⟩ := hstation q t ht
    . rw [Station.handed_reach, h.handed q s hs]
      simp
    . rw [h.handed q t ht, if_neg (fun heq => hq heq.1.symm), List.append_nil]
  . intro q t ht
    rw [hlog, reached_concat bs q .released j.log hb, List.length_append]
    obtain ⟨rfl, rfl⟩ | ⟨hq, ht⟩ := hstation q t ht
    . rw [Station.released_reach, h.released q s hs]
      split <;> simp_all
    . rw [h.released q t ht, if_neg (fun heq => hq heq.1.symm), List.length_nil, Nat.add_zero]

theorem Tracks.hand (h : j.Tracks o bs) {i p : Nat} {lines : List Line}
    (ho : o.hand? i p = some (o', lines)) : (j.reach i p .handed).Tracks o' bs := by
  obtain ⟨d, s, hd, hs, hstage, rfl⟩ := Outbox.exists_of_hand? ho
  apply h.reach hd hs hstage Stage.waiting_before_handed

theorem Tracks.release (h : j.Tracks o bs) {i p : Nat} {outcome : Outcome} {lines : List Line}
    (ho : o.release? i p outcome = some (o', lines)) : (j.reach i p .released).Tracks o' bs := by
  obtain ⟨d, s, hd, hs, hstage, rfl⟩ := Outbox.exists_of_release? ho
  apply h.reach hd hs hstage Stage.handed_before_released

/-!
## Dispatches
-/

theorem map_snd_filter_zip {α : Type} {ks : List Nat} {ds : List α} (f : α → Bool)
    (h : ds.length ≤ ks.length) :
    ((ks.zip ds).filter fun (_, d) => f d).map Prod.snd = ds.filter f := by
  conv => rhs; rw [← List.map_snd_zip h, List.filter_map]
  rfl

theorem stage_of_finished {d : Dispatch} (h : d.finished) {p : Nat} (hp : p < d.stages.length) :
    d.stages[p]? = some .released := by
  rw [List.getElem?_eq_getElem hp]
  congr 1
  exact of_decide_eq_true (List.all_eq_true.1 h _ (List.getElem_mem hp))

/--
A batch that is not in flight any more was delivered to every sink.
-/
theorem Tracks.tidy (h : j.Tracks o bs) : (j.tidy o).Tracks o.tidy bs := by
  have hsnd := map_snd_filter_zip (fun d : Dispatch => !d.finished) (Nat.le_of_eq h.length_held.symm)
  have hzip : _ = (j.tidy o).held.zip o.tidy.inFlight := List.zip_of_prod rfl hsnd
  have hmem {k : Nat} {d : Dispatch} (hkd : (k, d) ∈ (j.tidy o).held.zip o.tidy.inFlight) :
      (k, d) ∈ j.held.zip o.inFlight := by
    rw [← hzip] at hkd
    apply List.mem_of_mem_filter hkd
  constructor
  . have hlength := congrArg List.length hsnd
    rw [List.length_map] at hlength
    exact (List.length_map _).trans hlength
  . have hsub : (j.tidy o).held.Sublist ((j.held.zip o.inFlight).map Prod.fst) :=
      List.filter_sublist.map _
    rw [List.map_fst_zip (Nat.le_of_eq h.length_held)] at hsub
    apply h.nodup_held.sublist hsub
  . exact h.nodup_log
  . exact h.lt_of_mem_log
  . intro k d hkd
    apply h.batch k d (hmem hkd)
  . intro k d hkd
    apply h.stages k d (hmem hkd)
  . intro k d hkd
    apply h.describes k d (hmem hkd)
  . intro k p hk hheld hp stage hstage
    by_cases hwas : k ∈ j.held
    . obtain ⟨d, hd⟩ := h.exists_dispatch hwas
      have hfinished : d.finished := by
        by_contra hunfinished
        apply hheld
        apply List.mem_map.2 ⟨(k, d), List.mem_filter.2 ⟨hd, by simpa using hunfinished⟩, rfl⟩
      apply (h.describes k d hd p stage).2
      exact ⟨.released, stage_of_finished hfinished (by rwa [h.stages k d hd]), hstage⟩
    . apply h.ended k p hk hwas hp stage hstage
  . exact h.handed
  . exact h.released

theorem reached_of_lt {log : List Delivery} (h : ∀ x ∈ log, x.batch < bs.length) (b : Batch)
    (p : Nat) (stage : Stage) : reached (bs ++ [b]) p stage log = reached bs p stage log := by
  unfold reached
  apply List.filterMap_congr
  intro x hx
  rw [List.getElem?_append_left (h x (List.mem_of_mem_filter hx))]

theorem Tracks.dispatch (h : j.Tracks o bs) (b : Batch) :
    (j.dispatch bs.length).Tracks (o.dispatch b) (bs ++ [b]) := by
  have hzip : (j.dispatch bs.length).held.zip (o.dispatch b).inFlight
      = j.held.zip o.inFlight ++ [(bs.length, .start b o.stations.length)] :=
    List.zip_append h.length_held
  have hcases {k : Nat} {d : Dispatch}
      (hkd : (k, d) ∈ (j.dispatch bs.length).held.zip (o.dispatch b).inFlight) :
      (k, d) ∈ j.held.zip o.inFlight ∨ k = bs.length ∧ d = .start b o.stations.length := by
    rw [hzip, List.mem_append, List.mem_singleton, Prod.mk.injEq] at hkd
    exact hkd
  have hlog (x : Delivery) (hx : x ∈ j.log) : x.batch < bs.length := (h.lt_of_mem_log x hx).1
  constructor
  . simp [Journal.dispatch, Outbox.dispatch, h.length_held]
  . rw [Journal.dispatch, ← List.concat_eq_append]
    apply h.nodup_held.concat
    intro hmem
    exact Nat.lt_irrefl _ (h.lt_of_mem_held hmem)
  . exact h.nodup_log
  . intro x hx
    obtain ⟨hbatch, hsink⟩ := h.lt_of_mem_log x hx
    rw [List.length_append]
    exact ⟨Nat.lt_add_right _ hbatch, hsink⟩
  . intro k d hkd
    obtain hkd | ⟨rfl, rfl⟩ := hcases hkd
    . have hb := h.batch k d hkd
      rw [List.getElem?_append_left (List.getElem?_eq_some_iff.1 hb).1, hb]
    . rw [List.getElem?_concat_length]
      rfl
  . intro k d hkd
    obtain hkd | ⟨rfl, rfl⟩ := hcases hkd
    . apply h.stages k d hkd
    . apply List.length_replicate
  . intro k d hkd
    obtain hkd | ⟨rfl, rfl⟩ := hcases hkd
    . apply h.describes k d hkd
    -- Nothing has been told of the new batch yet.
    . intro p stage
      constructor
      . intro hmem
        exact absurd (hlog _ hmem) (Nat.lt_irrefl _)
      . rintro ⟨now, hnow, hpast⟩
        rw [(List.mem_replicate.1 (List.mem_of_getElem? hnow)).2] at hpast
        cases hpast
  . intro k p hk hheld hp stage hstage
    rw [Journal.dispatch, List.mem_append, List.mem_singleton, not_or] at hheld
    apply h.ended k p ?_ hheld.1 hp stage hstage
    rw [List.length_append, List.length_singleton] at hk
    omega
  . intro p s hs
    exact (h.handed p s hs).trans (reached_of_lt hlog b p .handed).symm
  . intro p s hs
    exact (h.released p s hs).trans (congrArg List.length (reached_of_lt hlog b p .released)).symm

/-!
## Deliveries that have ended
-/

theorem Tracks.count_le_one (h : j.Tracks o bs) (x : Delivery) : j.log.count x ≤ 1 :=
  List.nodup_iff_count_le_one.1 h.nodup_log x

/--
A batch is in flight, or each sink was handed it and released.
-/
theorem Tracks.held_or_ended (h : j.Tracks o bs) {k : Nat} (hk : k < bs.length) :
    (∃ d, (k, d) ∈ j.held.zip o.inFlight ∧ bs[k]? = some d.batch)
      ∨ ∀ p < o.stations.length,
        j.log.count ⟨k, p, .handed⟩ = 1 ∧ j.log.count ⟨k, p, .released⟩ = 1 := by
  by_cases hheld : k ∈ j.held
  . left
    obtain ⟨d, hd⟩ := h.exists_dispatch hheld
    exact ⟨d, hd, h.batch k d hd⟩
  . right
    intro p hp
    have hended := h.ended k p hk hheld hp
    exact ⟨List.count_eq_one_of_mem h.nodup_log (hended _ (by decide)),
      List.count_eq_one_of_mem h.nodup_log (hended _ (by decide))⟩

theorem filterMap_range_getElem? {α : Type} (xs : List α) :
    (List.range xs.length).filterMap (xs[·]?) = xs := by
  induction xs using List.reverseRecOn with
  | nil => rfl
  | append_singleton xs x ih =>
    have hxs : (List.range xs.length).filterMap ((xs ++ [x])[·]?)
        = (List.range xs.length).filterMap (xs[·]?) := by
      apply List.filterMap_congr
      intro n hn
      rw [List.getElem?_append_left (List.mem_range.1 hn)]
    rw [List.length_append, List.length_singleton, List.range_succ, List.filterMap_append, hxs, ih]
    simp

/--
If every delivery to a sink has come to a stage, then it has been through it with each batch once.
-/
theorem Tracks.reached_perm (h : j.Tracks o bs) {p : Nat} {stage : Stage}
    (hall : ∀ k < bs.length, ⟨k, p, stage⟩ ∈ j.log) : (reached bs p stage j.log).Perm bs := by
  have hnumbers : ((j.log.filter fun x => x.sink = p ∧ x.stage = stage).map Delivery.batch).Perm
      (List.range bs.length) := by
    rw [List.perm_ext_iff_of_nodup ?_ List.nodup_range]
    . intro k
      rw [List.mem_range]
      constructor
      . intro hk
        obtain ⟨x, hx, rfl⟩ := List.mem_map.1 hk
        exact (h.lt_of_mem_log x (List.mem_of_mem_filter hx)).1
      . intro hk
        apply List.mem_map.2 ⟨_, List.mem_filter.2 ⟨hall k hk, by simp⟩, rfl⟩
    . apply (h.nodup_log.filter _).map_on
      intro x hx y hy hbatch
      have hx := of_decide_eq_true (List.mem_filter.1 hx).2
      have hy := of_decide_eq_true (List.mem_filter.1 hy).2
      cases x
      cases y
      simp_all
  have hmap := hnumbers.filterMap (bs[·]?)
  rw [filterMap_range_getElem?, List.filterMap_map] at hmap
  exact hmap

/--
Once nothing is in flight any more, each sink was handed every batch once and was released as often.
-/
theorem Tracks.ended_of_idle (h : j.Tracks o bs) (hidle : o.idle) :
    (∀ k < bs.length, ∀ p < o.stations.length,
        j.log.count ⟨k, p, .handed⟩ = 1 ∧ j.log.count ⟨k, p, .released⟩ = 1)
      ∧ ∀ s ∈ o.stations, s.handed.Perm bs ∧ s.released = bs.length := by
  have hnil : o.tidy.inFlight = [] := by
    rw [Outbox.tidy, List.filter_eq_nil_iff]
    intro d hd
    simpa using List.all_eq_true.1 hidle d hd
  have hended (k : Nat) (hk : k < bs.length) (p : Nat) (hp : p < o.stations.length) :
      j.log.count ⟨k, p, .handed⟩ = 1 ∧ j.log.count ⟨k, p, .released⟩ = 1 := by
    cases h.tidy.held_or_ended hk with
    | inl hheld =>
      obtain ⟨d, hd, -⟩ := hheld
      rw [hnil, List.zip_nil_right] at hd
      cases hd
    | inr hended => apply hended p hp
  refine ⟨hended, ?_⟩
  intro s hs
  obtain ⟨p, hs⟩ := List.mem_iff_getElem?.1 hs
  have hp := (List.getElem?_eq_some_iff.1 hs).1
  have hmem {x : Delivery} (hx : j.log.count x = 1) : x ∈ j.log :=
    List.count_pos_iff.1 (hx ▸ Nat.one_pos)
  constructor
  . rw [h.handed p s hs]
    exact h.reached_perm fun k hk => hmem (hended k hk p hp).1
  . rw [h.released p s hs]
    exact (h.reached_perm fun k hk => hmem (hended k hk p hp).2).length_eq

end Journal

/-!
## Deliveries that have not ended
-/

/--
How many times a delivery still goes on.
-/
def Stage.left : Stage → Nat
  | waiting => 2
  | handed => 1
  | released => 0

theorem sum_map_set_lt {α : Type} {as : List α} {i : Nat} {a b : α} (f : α → Nat)
    (ha : as[i]? = some a) (hlt : f b < f a) : ((as.set i b).map f).sum < (as.map f).sum := by
  obtain ⟨hi, rfl⟩ := List.getElem?_eq_some_iff.1 ha
  obtain ⟨before, after, has, -, hset⟩ := @List.exists_of_set _ i b as hi
  rw [hset]
  conv =>
    rhs
    rw [has]
  simp only [List.map_append, List.map_cons, List.sum_append, List.sum_cons]
  omega

namespace Outbox

def left (o : Outbox) : Nat :=
  (o.inFlight.map fun d => (d.stages.map Stage.left).sum).sum

variable {o o' : Outbox} {i p : Nat} {lines : List Line}

theorem left_reach {d : Dispatch} {prev next : Stage} (hd : o.inFlight[i]? = some d)
    (hstage : d.stages[p]? = some prev) (hlt : next.left < prev.left) (s : Station) :
    (o.reach i p d s next).left < o.left :=
  sum_map_set_lt _ hd (sum_map_set_lt _ hstage hlt)

theorem left_of_hand? (h : o.hand? i p = some (o', lines)) : o'.left < o.left := by
  obtain ⟨d, s, hd, -, hstage, rfl⟩ := exists_of_hand? h
  apply left_reach hd hstage (by decide)

theorem left_of_release? {outcome : Outcome} (h : o.release? i p outcome = some (o', lines)) :
    o'.left < o.left := by
  obtain ⟨d, s, hd, -, hstage, rfl⟩ := exists_of_release? h
  apply left_reach hd hstage (by decide)

end Outbox

/--
As long as there are deliveries that have not ended, one of them can go on.
-/
theorem Journal.Tracks.exists_next {j : Journal} {o : Outbox} {bs : List Batch} (h : j.Tracks o bs)
    (hbusy : ¬o.idle) (outcome : Outcome) :
    ∃ i p, (o.hand? i p).isSome ∨ (o.release? i p outcome).isSome := by
  simp only [Outbox.idle, List.all_eq_true, not_forall] at hbusy
  obtain ⟨d, hd, hbusy⟩ := hbusy
  simp only [Dispatch.finished, List.all_eq_true, not_forall, decide_eq_true_eq] at hbusy
  obtain ⟨stage, hstage, hne⟩ := hbusy
  obtain ⟨i, hi⟩ := List.mem_iff_getElem?.1 hd
  obtain ⟨p, hp⟩ := List.mem_iff_getElem?.1 hstage
  obtain ⟨k, -, hk⟩ := h.exists_held hi
  have hlt : p < o.stations.length := by
    rw [← h.stages k d hk]
    exact (List.getElem?_eq_some_iff.1 hp).1
  have hs := List.getElem?_eq_getElem hlt
  refine ⟨i, p, ?_⟩
  cases stage with
  | waiting =>
    left
    simp only [Outbox.hand?, hi, hs, hp, if_true, Option.isSome_some]
  | handed =>
    right
    simp only [Outbox.release?, hi, hs, hp, if_true, Option.isSome_some]
  | released => exact absurd rfl hne

end Metering
