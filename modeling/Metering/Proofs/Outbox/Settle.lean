import Metering.Outbox

/-!
This module contains what is left of an outbox once every delivery that can take place has done so.
Dispatches are delivered one after the other, so an outbox may be settled bit by bit: it makes no
difference whether a batch is dispatched before or after the earlier ones are delivered, or whether
the dispatches that are finished are still there.
-/

namespace Metering

namespace Station

/--
A station that was handed a batch and released, with what is left of its gate.
-/
def serve (s : Station) (gate : Gate) (b : Batch) : Station :=
  ⟨s.sink, gate, s.handed ++ [b], s.released + 1⟩

def serveLines (s : Station) (b : Batch) : List Line :=
  s.sink.ownLines b ++ [s.sink.outcomeLine b s.sink.outcome, s.sink.releaseLine]

end Station

namespace Outbox

theorem deliver?_eq (o : Outbox) (i p : Nat) :
    o.deliver? i p =
      match o.inFlight[i]?, o.stations[p]? with
      | some d, some s =>
        if d.stages[p]? = some .waiting then
          s.gate.pass?.map fun gate =>
            (⟨o.stations.set p (s.serve gate d.batch),
              o.inFlight.set i { d with stages := d.stages.set p .released }⟩, s.serveLines d.batch)
        else
          none
      | _, _ => none := by
  unfold deliver? hand?
  cases hd : o.inFlight[i]? with
  | none => cases o.stations[p]? <;> rfl
  | some d =>
    cases hs : o.stations[p]? with
    | none => rfl
    | some s =>
      have hi := (List.getElem?_eq_some_iff.1 hd).1
      have hp := (List.getElem?_eq_some_iff.1 hs).1
      dsimp only
      split
      . next hstage =>
        have hj := (List.getElem?_eq_some_iff.1 hstage).1
        simp only [pass?, release?, Option.bind_eq_bind, Option.bind_some,
          List.getElem?_set_self hp]
        cases s.gate.pass? with
        | none => rfl
        | some gate => simp [hi, hp, hj, Station.serve, Station.serveLines]
      . rfl

theorem deliver?_eq_none_iff {o : Outbox} {i p : Nat} :
    o.deliver? i p = none ↔
      ∀ d s, o.inFlight[i]? = some d → o.stations[p]? = some s → d.stages[p]? = some .waiting →
        s.gate.pass? = none := by
  rw [deliver?_eq]
  cases o.inFlight[i]? with
  | none => simp
  | some d =>
    cases o.stations[p]? with
    | none => simp
    | some s =>
      by_cases hstage : d.stages[p]? = some .waiting
      . simp [hstage]
      . simp [hstage]

/--
A delivery takes place, or nothing happens.
-/
theorem deliver_cases (o : Outbox) (i p : Nat) :
    (o.deliver? i p = none ∧ o.deliver i p = (o, []))
      ∨ ∃ d s gate, o.inFlight[i]? = some d ∧ o.stations[p]? = some s
        ∧ d.stages[p]? = some .waiting ∧ s.gate.pass? = some gate
        ∧ o.deliver i p = (⟨o.stations.set p (s.serve gate d.batch),
          o.inFlight.set i { d with stages := d.stages.set p .released }⟩, s.serveLines d.batch) := by
  cases hdeliver : o.deliver? i p with
  | none =>
    left
    rw [deliver, hdeliver]
    exact ⟨rfl, rfl⟩
  | some result =>
    right
    rw [deliver, hdeliver]
    rw [deliver?_eq] at hdeliver
    split at hdeliver
    . next d s hd hs =>
      split at hdeliver
      . next hstage =>
        obtain ⟨gate, hgate, rfl⟩ := Option.map_eq_some_iff.1 hdeliver
        exact ⟨d, s, gate, hd, hs, hstage, hgate, rfl⟩
      . cases hdeliver
    . cases hdeliver

theorem length_deliver (o : Outbox) (i p : Nat) :
    (o.deliver i p).1.stations.length = o.stations.length
      ∧ (o.deliver i p).1.inFlight.length = o.inFlight.length := by
  obtain ⟨-, hsame⟩ | ⟨d, s, gate, -, -, -, -, hserve⟩ := o.deliver_cases i p
  . rw [hsame]
    exact ⟨rfl, rfl⟩
  . rw [hserve]
    exact ⟨List.length_set, List.length_set⟩

theorem length_deliverAll (o : Outbox) (cells : List (Nat × Nat)) :
    (o.deliverAll cells).1.stations.length = o.stations.length
      ∧ (o.deliverAll cells).1.inFlight.length = o.inFlight.length := by
  induction cells generalizing o with
  | nil => exact ⟨rfl, rfl⟩
  | cons cell cells ih =>
    obtain ⟨hstations, hinFlight⟩ := ih (o.deliver cell.1 cell.2).1
    obtain ⟨hstations', hinFlight'⟩ := o.length_deliver cell.1 cell.2
    exact ⟨hstations.trans hstations', hinFlight.trans hinFlight'⟩

theorem deliverAll_append (o : Outbox) (cells cells' : List (Nat × Nat)) :
    o.deliverAll (cells ++ cells')
      = (((o.deliverAll cells).1.deliverAll cells').1,
        (o.deliverAll cells).2 ++ ((o.deliverAll cells).1.deliverAll cells').2) := by
  induction cells generalizing o with
  | nil => rfl
  | cons cell cells ih =>
    simp only [List.cons_append, deliverAll]
    rw [ih, List.append_assoc]

/-!
## Nothing is left to deliver
-/

theorem deliver?_deliver_self (o : Outbox) (i p : Nat) :
    (o.deliver i p).1.deliver? i p = none := by
  obtain ⟨hnone, hsame⟩ | ⟨d, s, gate, hd, -, hstage, -, hserve⟩ := o.deliver_cases i p
  . rw [hsame]
    exact hnone
  . rw [hserve, deliver?_eq_none_iff]
    intro d' s' hd' _ hstage'
    rw [List.getElem?_set_self (List.getElem?_eq_some_iff.1 hd).1, Option.some.injEq] at hd'
    rw [← hd', List.getElem?_set_self (List.getElem?_eq_some_iff.1 hstage).1] at hstage'
    cases hstage'

/--
What cannot be delivered cannot be delivered later on either. Gates only close.
-/
theorem deliver?_deliver {o : Outbox} {i p : Nat} (h : o.deliver? i p = none) (j q : Nat) :
    (o.deliver j q).1.deliver? i p = none := by
  obtain ⟨-, hsame⟩ | ⟨d, s, gate, hd, hs, -, hgate, hserve⟩ := o.deliver_cases j q
  . rw [hsame]
    exact h
  . rw [deliver?_eq_none_iff] at h
    rw [hserve, deliver?_eq_none_iff]
    intro d' s' hd' hs' hstage'
    by_cases hq : q = p
    . subst hq
      by_cases hj : j = i
      . subst hj
        rw [List.getElem?_set_self (List.getElem?_eq_some_iff.1 hd).1, Option.some.injEq] at hd'
        rw [← hd', List.getElem?_set_self'] at hstage'
        simp at hstage'
      . rw [List.getElem?_set_ne hj] at hd'
        rw [h d' s hd' hs hstage'] at hgate
        cases hgate
    . rw [List.getElem?_set_ne hq] at hs'
      by_cases hj : j = i
      . subst hj
        rw [List.getElem?_set_self (List.getElem?_eq_some_iff.1 hd).1, Option.some.injEq] at hd'
        rw [← hd', List.getElem?_set_ne hq] at hstage'
        exact h d s' hd hs' hstage'
      . rw [List.getElem?_set_ne hj] at hd'
        exact h d' s' hd' hs' hstage'

theorem deliver?_deliverAll {o : Outbox} {i p : Nat} (h : o.deliver? i p = none)
    (cells : List (Nat × Nat)) : (o.deliverAll cells).1.deliver? i p = none := by
  induction cells generalizing o with
  | nil => exact h
  | cons cell cells ih => exact ih (deliver?_deliver h cell.1 cell.2)

theorem deliver?_deliverAll_of_mem (o : Outbox) {cells : List (Nat × Nat)} {i p : Nat}
    (hmem : (i, p) ∈ cells) : (o.deliverAll cells).1.deliver? i p = none := by
  induction cells generalizing o with
  | nil => cases hmem
  | cons cell cells ih =>
    cases hmem with
    | head => exact deliver?_deliverAll (o.deliver?_deliver_self i p) cells
    | tail _ hmem => exact ih (o.deliver cell.1 cell.2).1 hmem

theorem deliverAll_eq_self {o : Outbox} {cells : List (Nat × Nat)}
    (h : ∀ cell ∈ cells, o.deliver? cell.1 cell.2 = none) : o.deliverAll cells = (o, []) := by
  induction cells with
  | nil => rfl
  | cons cell cells ih =>
    have hthis : o.deliver cell.1 cell.2 = (o, []) := by
      rw [deliver, h cell List.mem_cons_self]
      rfl
    rw [deliverAll, hthis]
    dsimp only
    rw [ih fun cell' hcell' => h cell' (List.mem_cons_of_mem cell hcell')]
    rfl

def cells (o : Outbox) : List (Nat × Nat) :=
  (List.range o.inFlight.length).flatMap fun i => (List.range o.stations.length).map (i, ·)

theorem mem_cells_iff {o : Outbox} {cell : Nat × Nat} :
    cell ∈ o.cells ↔ cell.1 < o.inFlight.length ∧ cell.2 < o.stations.length := by
  obtain ⟨i, p⟩ := cell
  simp [cells]

theorem settle_eq (o : Outbox) : o.settle = o.deliverAll o.cells := rfl

theorem settle_settle (o : Outbox) : o.settle.1.settle = (o.settle.1, []) := by
  have hcells : o.settle.1.cells = o.cells := by
    obtain ⟨hstations, hinFlight⟩ := o.length_deliverAll o.cells
    unfold cells
    rw [← hstations, ← hinFlight]
    rfl
  rw [settle_eq o.settle.1, hcells]
  apply deliverAll_eq_self
  intro cell hcell
  exact o.deliver?_deliverAll_of_mem hcell

/-!
## Parts of an outbox
-/

/--
An outbox with more dispatches before and after its own ones.
-/
def within (pre post : List Dispatch) (o : Outbox) : Outbox :=
  ⟨o.stations, pre ++ o.inFlight ++ post⟩

theorem deliver_within {o : Outbox} {i : Nat} (hi : i < o.inFlight.length) (p : Nat)
    (pre post : List Dispatch) :
    (o.within pre post).deliver (pre.length + i) p
      = ((o.deliver i p).1.within pre post, (o.deliver i p).2) := by
  have hget : (pre ++ o.inFlight ++ post)[pre.length + i]? = o.inFlight[i]? := by
    rw [List.append_assoc, List.getElem?_append_right (Nat.le_add_right _ _), Nat.add_sub_cancel_left,
      List.getElem?_append_left hi]
  have hset (d : Dispatch) : (pre ++ o.inFlight ++ post).set (pre.length + i) d
      = pre ++ o.inFlight.set i d ++ post := by
    rw [List.append_assoc, List.set_append_right _ _ (Nat.le_add_right _ _),
      Nat.add_sub_cancel_left, List.set_append_left _ _ hi, List.append_assoc]
  unfold deliver within
  rw [deliver?_eq, deliver?_eq]
  dsimp only
  rw [hget]
  cases o.inFlight[i]? with
  | none => rfl
  | some d =>
    cases o.stations[p]? with
    | none => rfl
    | some s =>
      dsimp only
      split
      . cases s.gate.pass? with
        | none => rfl
        | some gate => simp only [Option.map_some, Option.getD_some, hset]
      . rfl

theorem deliverAll_within {o : Outbox} (pre post : List Dispatch) {cells : List (Nat × Nat)}
    (hcells : ∀ cell ∈ cells, cell.1 < o.inFlight.length) :
    (o.within pre post).deliverAll (cells.map fun cell => (pre.length + cell.1, cell.2))
      = ((o.deliverAll cells).1.within pre post, (o.deliverAll cells).2) := by
  induction cells generalizing o with
  | nil => rfl
  | cons cell cells ih =>
    simp only [List.map_cons, deliverAll]
    rw [deliver_within (hcells cell List.mem_cons_self), ih]
    intro cell' hcell'
    rw [(o.length_deliver cell.1 cell.2).2]
    apply hcells cell' (List.mem_cons_of_mem cell hcell')

theorem cells_append (stations : List Station) (ds es : List Dispatch) :
    cells ⟨stations, ds ++ es⟩ = cells ⟨stations, ds⟩
      ++ (cells ⟨stations, es⟩).map fun cell => (ds.length + cell.1, cell.2) := by
  unfold cells
  rw [List.length_append, List.range_add, List.flatMap_append, List.flatMap_map, List.map_flatMap]
  simp only [List.map_map]
  rfl

/--
The first dispatches are settled as if there were no others, and those after them with what is left
of the stations.
-/
theorem settle_append (stations : List Station) (ds es : List Dispatch) :
    settle ⟨stations, ds ++ es⟩ =
      let first := settle ⟨stations, ds⟩
      let second := settle ⟨first.1.stations, es⟩
      (⟨second.1.stations, first.1.inFlight ++ second.1.inFlight⟩, first.2 ++ second.2) := by
  have hfirst : deliverAll ⟨stations, ds ++ es⟩ (cells ⟨stations, ds⟩)
      = ((settle ⟨stations, ds⟩).1.within [] es, (settle ⟨stations, ds⟩).2) := by
    have hwithin := deliverAll_within (o := ⟨stations, ds⟩) [] es
      fun cell hcell => (mem_cells_iff.1 hcell).1
    simpa only [settle_eq, within, List.nil_append, List.length_nil, Nat.zero_add, List.map_id']
      using hwithin
  obtain ⟨hstations, hinFlight⟩ := length_deliverAll ⟨stations, ds⟩ (cells ⟨stations, ds⟩)
  have hcells : cells ⟨stations, es⟩ = cells ⟨(settle ⟨stations, ds⟩).1.stations, es⟩ := by
    unfold cells
    rw [← hstations]
    rfl
  have hsecond := deliverAll_within (o := ⟨(settle ⟨stations, ds⟩).1.stations, es⟩)
    (settle ⟨stations, ds⟩).1.inFlight [] fun cell hcell => (mem_cells_iff.1 hcell).1
  have hlength : (settle ⟨stations, ds⟩).1.inFlight.length = ds.length := hinFlight
  rw [hlength, ← hcells] at hsecond
  simp only [within, List.append_nil] at hsecond
  rw [settle_eq ⟨stations, ds ++ es⟩, cells_append, deliverAll_append, hfirst]
  simp only [within, List.nil_append]
  rw [hsecond, hcells, ← settle_eq]

/-!
## Dispatches that are finished
-/

/--
Whether two outboxes differ in dispatches that are finished only.
-/
def Similar (o o' : Outbox) : Prop :=
  o.tidy = o'.tidy

variable {o o' : Outbox}

theorem similar_tidy (o : Outbox) : o.tidy.Similar o := by
  unfold Similar tidy
  rw [List.filter_filter]
  simp only [Bool.and_self]

theorem Similar.stations (h : o.Similar o') : o.stations = o'.stations := by
  have h : o.tidy.stations = o'.tidy.stations := congrArg Outbox.stations h
  exact h

theorem Similar.dispatch (h : o.Similar o') (b : Batch) :
    (o.dispatch b).Similar (o'.dispatch b) := by
  have hstations := h.stations
  have h : o.tidy = o'.tidy := h
  have hinFlight := congrArg Outbox.inFlight h
  unfold Similar tidy at *
  unfold Outbox.dispatch
  rw [List.filter_append, List.filter_append, hstations]
  exact congrArg (Outbox.mk _) (congrArg (· ++ _) hinFlight)

theorem idle_iff (o : Outbox) : o.idle ↔ o.tidy.inFlight = [] := by
  unfold idle tidy
  rw [List.all_eq_true, List.filter_eq_nil_iff]
  simp only [Bool.not_eq_true', Bool.not_eq_false]

theorem Similar.idle (h : o.Similar o') : o.idle = o'.idle := by
  rw [Bool.eq_iff_iff, idle_iff, idle_iff, h]

theorem settle_of_finished (stations : List Station) {d : Dispatch} (h : d.finished) :
    settle ⟨stations, [d]⟩ = (⟨stations, [d]⟩, []) := by
  rw [settle_eq]
  apply deliverAll_eq_self
  intro cell _
  rw [deliver?_eq_none_iff]
  intro d' s hd _ hstage
  have hmem := List.mem_of_getElem? hd
  rw [List.mem_singleton] at hmem
  subst hmem
  have hreleased := List.all_eq_true.1 h _ (List.mem_of_getElem? hstage)
  cases of_decide_eq_true hreleased

theorem settle_filter (stations : List Station) (ds : List Dispatch) :
    (settle ⟨stations, ds.filter fun d => !d.finished⟩).1.Similar (settle ⟨stations, ds⟩).1 := by
  induction ds generalizing stations with
  | nil => rfl
  | cons d ds ih =>
    have happend := settle_append stations [d] ds
    rw [List.singleton_append] at happend
    rw [happend]
    unfold Similar tidy at *
    cases hd : d.finished with
    | true =>
      rw [settle_of_finished stations hd]
      have ih := ih stations
      simp only [List.singleton_append, List.filter_cons, hd, Bool.not_true, Bool.false_eq_true,
        if_false]
      exact ih
    | false =>
      have ih := ih (settle ⟨stations, [d]⟩).1.stations
      rw [List.filter_cons, hd, Bool.not_false, if_pos rfl]
      have happend' := settle_append stations [d] (ds.filter fun d => !d.finished)
      rw [List.singleton_append] at happend'
      rw [happend', Outbox.mk.injEq] at *
      dsimp only
      rw [List.filter_append, List.filter_append, ih.1, ih.2]
      exact ⟨rfl, rfl⟩

theorem Similar.settle (h : o.Similar o') : o.settle.1.Similar o'.settle.1 := by
  have ho := settle_filter o.stations o.inFlight
  have ho' := settle_filter o'.stations o'.inFlight
  unfold Similar at *
  have h : (⟨o.stations, o.inFlight.filter fun d => !d.finished⟩ : Outbox)
    = ⟨o'.stations, o'.inFlight.filter fun d => !d.finished⟩ := h
  rw [h] at ho
  exact ho.symm.trans ho'

/--
It makes no difference whether the earlier dispatches were settled before a batch is dispatched.
-/
theorem settle_dispatch_settle (o : Outbox) (b : Batch) :
    (o.settle.1.dispatch b).settle.1 = (o.dispatch b).settle.1 := by
  have hlength := (o.length_deliverAll o.cells).1
  have hsettled := o.settle_settle
  unfold Outbox.dispatch
  rw [settle_append, settle_append]
  dsimp only
  rw [hsettled, settle_eq o, hlength]

theorem similar_settle_tidy_settle (o : Outbox) :
    o.settle.1.tidy.settle.1.Similar o.tidy.settle.1 := by
  have hleft := (similar_tidy o.settle.1).settle
  have hright := (similar_tidy o).settle
  rw [settle_settle] at hleft
  exact Eq.trans hleft (Eq.symm hright)

theorem similar_settle_dispatch_settle (o : Outbox) (b : Batch) :
    (o.settle.1.tidy.dispatch b).settle.1.Similar (o.tidy.dispatch b).settle.1 := by
  have hleft := ((similar_tidy o.settle.1).dispatch b).settle
  have hright := ((similar_tidy o).dispatch b).settle
  rw [settle_dispatch_settle] at hleft
  exact Eq.trans hleft (Eq.symm hright)

/-!
## Gates that let everything through
-/

/--
Whether each dispatch is for the stations of the outbox, and no delivery is under way.
-/
def Orderly (o : Outbox) : Prop :=
  ∀ d ∈ o.inFlight, d.stages.length = o.stations.length ∧ .handed ∉ d.stages

def Open (o : Outbox) : Prop :=
  ∀ s ∈ o.stations, s.gate = .wide

theorem orderly_ofStations (stations : List Station) : (ofStations stations).Orderly :=
  nofun

theorem Orderly.tidy (h : o.Orderly) : o.tidy.Orderly :=
  fun d hd => h d (List.mem_filter.1 hd).1

theorem Orderly.dispatch (h : o.Orderly) (b : Batch) : (o.dispatch b).Orderly := by
  intro d hd
  cases List.mem_append.1 hd with
  | inl hd => apply h d hd
  | inr hd =>
    rw [List.mem_singleton.1 hd]
    refine ⟨List.length_replicate, ?_⟩
    intro hmem
    cases (List.mem_replicate.1 hmem).2

theorem Similar.openGates (h : o.Similar o') : o.openGates.Similar o'.openGates :=
  congrArg Outbox.openGates h

theorem Orderly.openGates (h : o.Orderly) : o.openGates.Orderly := by
  intro d hd
  rw [Outbox.openGates, List.length_map]
  apply h d hd

theorem open_openGates (o : Outbox) : o.openGates.Open := by
  intro s hs
  obtain ⟨t, -, rfl⟩ := List.mem_map.1 hs
  rfl

theorem Orderly.deliver (h : o.Orderly) (i p : Nat) : (o.deliver i p).1.Orderly := by
  obtain ⟨-, hsame⟩ | ⟨d, s, gate, hd, -, -, -, hserve⟩ := o.deliver_cases i p
  . rw [hsame]
    exact h
  . rw [hserve]
    intro d' hd'
    rw [List.length_set]
    cases List.mem_or_eq_of_mem_set hd' with
    | inl hd' => apply h d' hd'
    | inr heq =>
      obtain ⟨hlength, hhanded⟩ := h d (List.mem_of_getElem? hd)
      rw [heq, List.length_set]
      refine ⟨hlength, ?_⟩
      intro hmem
      cases List.mem_or_eq_of_mem_set hmem with
      | inl hmem => exact hhanded hmem
      | inr heq => cases heq

theorem Open.deliver (h : o.Open) (i p : Nat) : (o.deliver i p).1.Open := by
  obtain ⟨-, hsame⟩ | ⟨d, s, gate, -, hs, -, hgate, hserve⟩ := o.deliver_cases i p
  . rw [hsame]
    exact h
  . rw [hserve]
    intro s' hs'
    cases List.mem_or_eq_of_mem_set hs' with
    | inl hs' => apply h s' hs'
    | inr heq =>
      rw [h s (List.mem_of_getElem? hs)] at hgate
      rw [heq]
      exact (Option.some.inj hgate).symm

theorem Orderly.settle (h : o.Orderly) : o.settle.1.Orderly := by
  rw [settle_eq]
  induction o.cells generalizing o with
  | nil => exact h
  | cons cell cells ih => exact ih (h.deliver cell.1 cell.2)

theorem Open.settle (h : o.Open) : o.settle.1.Open := by
  rw [settle_eq]
  induction o.cells generalizing o with
  | nil => exact h
  | cons cell cells ih => exact ih (h.deliver cell.1 cell.2)

theorem Orderly.idle_settle (h : o.Orderly) (hopen : o.Open) : o.settle.1.idle := by
  have hnone (i p : Nat) (hcell : (i, p) ∈ o.cells) : o.settle.1.deliver? i p = none := by
    rw [settle_eq]
    apply deliver?_deliverAll_of_mem o hcell
  obtain ⟨hstations, hinFlight⟩ := o.length_deliverAll o.cells
  rw [← settle_eq] at hstations hinFlight
  unfold idle Dispatch.finished
  simp only [List.all_eq_true, decide_eq_true_eq]
  intro d hd stage hstage
  obtain ⟨i, hi⟩ := List.mem_iff_getElem?.1 hd
  obtain ⟨p, hp⟩ := List.mem_iff_getElem?.1 hstage
  obtain ⟨hlength, hhanded⟩ := h.settle d hd
  have hlt : p < o.settle.1.stations.length := hlength ▸ (List.getElem?_eq_some_iff.1 hp).1
  have hcell : (i, p) ∈ o.cells := by
    rw [mem_cells_iff, ← hstations, ← hinFlight]
    exact ⟨(List.getElem?_eq_some_iff.1 hi).1, hlt⟩
  cases stage with
  | released => rfl
  | handed => exact absurd hstage hhanded
  | waiting =>
    -- Nothing waits at a gate that is open.
    have hgate := deliver?_eq_none_iff.1 (hnone i p hcell) d _ hi (List.getElem?_eq_getElem hlt) hp
    rw [hopen.settle _ (List.getElem_mem hlt)] at hgate
    cases hgate

end Outbox

end Metering
