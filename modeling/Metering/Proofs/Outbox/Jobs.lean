import Mathlib.Algebra.GroupWithZero.Nat
import Mathlib.Data.List.Perm.Basic
import Metering.Outbox.Jobs
import Metering.Proofs.Outbox.Settle

/-!
This module contains that a dispatch serves each sink as if there were no others, in whatever order
the jobs take their steps, and that each of these orders comes to what settling an outbox comes to.
-/

namespace Metering

namespace Job

/-!
## One job
-/

variable {s : Sink} {b : Batch} {j j' : Job} {es : List Event}

def panicLines (s : Sink) (b : Batch) : Option Panic → List Event
  | none => []
  | some panic => [.logged (s.outcomeLine b (.panicked panic))]

/--
A step of a job, its own or that of the loop which takes note of it, and what happens in it.
-/
inductive Goes (s : Sink) (b : Batch) : Job → List Event → Job → Prop where
  | hand : Goes s b spawned (.handed b :: (s.ownLines b).map .own) delivering
  | finish : Goes s b delivering [.returned s.outcome] (returned s.outcome)
  | receive : Goes s b (returned .received) [.logged (s.outcomeLine b .received)] (leaving none)
  | fail (e : SinkError) :
    Goes s b (returned (.failed e)) [.logged (s.outcomeLine b (.failed e))] (leaving none)
  | unwind (panic : Panic) : Goes s b (returned (.panicked panic)) [] (leaving (some panic))
  | close (panic : Option Panic) : Goes s b (leaving panic) [.closed] (closed panic)
  | release (panic : Option Panic) :
    Goes s b (closed panic) [.logged s.releaseLine] (ended panic)
  | join (panic : Option Panic) : Goes s b (ended panic) (panicLines s b panic) joined

theorem goes_of_advance? (h : j.advance? s b = some (j', es)) : Goes s b j es j' := by
  unfold advance? at h
  split at h
  . cases h
    exact .hand
  . cases h
    exact .finish
  . cases h
    exact .unwind _
  . next outcome hpanic =>
    cases h
    cases outcome with
    | received => exact .receive
    | failed e => exact .fail e
    | panicked panic => exact absurd rfl (hpanic panic)
  . cases h
    exact .close _
  . cases h
    exact .release _
  . cases h
  . cases h

theorem goes_of_join? (h : j.join? s b = some (j', es)) : Goes s b j es j' := by
  unfold join? at h
  split at h
  . cases h
    exact .join none
  . cases h
    exact .join (some _)
  . cases h

/--
A job that the loop has not taken note of goes on, by itself or through the loop.
-/
theorem exists_next (s : Sink) (b : Batch) (h : j ≠ joined) :
    (j.advance? s b).isSome ∨ (j.join? s b).isSome := by
  cases j with
  | returned outcome => cases outcome <;> exact .inl rfl
  | ended panic => cases panic <;> exact .inr rfl
  | joined => exact absurd rfl h
  | _ => exact .inl rfl

/--
What happens after a delivery has ended. Only the line about a panic is left to the loop.
-/
def parting (s : Sink) (b : Batch) : Outcome → List Event
  | .panicked panic =>
    [.closed, .logged s.releaseLine, .logged (s.outcomeLine b (.panicked panic))]
  | outcome => [.logged (s.outcomeLine b outcome), .closed, .logged s.releaseLine]

/--
All that happens in the place of a sink.
-/
def account (s : Sink) (b : Batch) : List Event :=
  .handed b :: (s.ownLines b).map .own ++ .returned s.outcome :: parting s b s.outcome

/--
What is still to happen in the place of a job.
-/
def rest (s : Sink) (b : Batch) : Job → List Event
  | spawned => account s b
  | delivering => .returned s.outcome :: parting s b s.outcome
  | returned outcome => parting s b outcome
  | leaving panic => .closed :: .logged s.releaseLine :: panicLines s b panic
  | closed panic => .logged s.releaseLine :: panicLines s b panic
  | ended panic => panicLines s b panic
  | joined => []

/--
How many steps a job is away from its end.
-/
def distance : Job → Nat
  | spawned => 6
  | delivering => 5
  | returned _ => 4
  | leaving _ => 3
  | closed _ => 2
  | ended _ => 1
  | joined => 0

theorem Goes.rest_eq (h : Goes s b j es j') : j.rest s b = es ++ j'.rest s b := by
  cases h with
  | join panic => exact (List.append_nil _).symm
  | _ => rfl

theorem Goes.distance_eq (h : Goes s b j es j') : j.distance = j'.distance + 1 := by
  cases h <;> rfl

theorem Goes.ne_joined (h : Goes s b j es j') : j ≠ joined := by
  rintro rfl
  cases h

end Job

namespace Jobs

open Job (Event Goes)

/-!
## Steps
-/

def happened (js : Jobs) (p : Nat) : List Event :=
  (js.log.filter (·.1 = p)).map Prod.snd

def put (js : Jobs) (p : Nat) (s : Sink) (j : Job) (es : List Event) : Jobs :=
  { js with places := js.places.set p (s, j), log := js.log ++ es.map (p, ·) }

/--
What a step can be: one of a job, or the end of the loop.
-/
inductive Leads (js : Jobs) : Jobs → Prop where
  | goes {p : Nat} {s : Sink} {j j' : Job} {es : List Event} (hp : js.places[p]? = some (s, j))
    (hgoes : Goes s js.batch j es j') : Leads js (js.put p s j' es)
  | complete (hnot : js.complete = false) (hall : ∀ x ∈ js.places, x.2 = .joined) :
    Leads js { js with complete := true }

variable {js js' : Jobs}

theorem leads_of_progress? {p : Nat}
    {next? : Sink → Batch → Job → Option (Job × List Event)}
    (hnext : ∀ s b j j' es, next? s b j = some (j', es) → Goes s b j es j')
    (h : js.progress? p next? = some js') : js.Leads js' := by
  unfold progress? at h
  split at h
  . cases h
  . next s j hp =>
    obtain ⟨⟨j', es⟩, hgoes, rfl⟩ := Option.map_eq_some_iff.1 h
    exact .goes hp (hnext s js.batch j j' es hgoes)

theorem leads_of_step? {m : Move} (h : js.step? m = some js') : js.Leads js' := by
  unfold step? at h
  split at h
  . exact leads_of_progress? (fun _ _ _ _ _ => Job.goes_of_advance?) h
  . exact leads_of_progress? (fun _ _ _ _ _ => Job.goes_of_join?) h
  . split at h
    . cases h
    . next hnot =>
      cases h
      simp only [Bool.or_eq_true, List.any_eq_true, decide_eq_true_eq, not_or, not_exists, not_and,
        not_not, Bool.not_eq_true] at hnot
      exact .complete hnot.1 hnot.2

theorem happened_put (js : Jobs) (p q : Nat) (s : Sink) (j : Job) (es : List Event) :
    (js.put p s j es).happened q = js.happened q ++ if p = q then es else [] := by
  unfold happened put
  rw [List.filter_append, List.map_append, List.filter_map, List.map_map]
  by_cases hq : p = q <;> simp [Function.comp_def, hq]

/-!
## What steps leave as it is
-/

/--
What the jobs of a dispatch have done, and what they have not done yet.
-/
structure Accounts (sinks : List Sink) (b : Batch) (js : Jobs) : Prop where
  batch : js.batch = b
  sinks : js.places.map Prod.fst = sinks
  /-- In each place that which has happened goes on with what is still to happen. -/
  place : ∀ p s j, js.places[p]? = some (s, j) → js.happened p ++ j.rest s b = Job.account s b
  all : (js.log.map Prod.snd ++ js.places.flatMap fun x => x.2.rest x.1 b).Perm
    (js.places.flatMap fun x => Job.account x.1 b)
  complete : js.complete → ∀ x ∈ js.places, x.2 = .joined

def distance (js : Jobs) : Nat :=
  (js.places.map (·.2.distance)).sum + if js.complete then 0 else 1

variable {sinks : List Sink} {b : Batch}

theorem accounts_start (sinks : List Sink) (b : Batch) : (start sinks b).Accounts sinks b where
  batch := rfl
  sinks := by
    unfold start
    rw [List.map_map]
    exact List.map_id sinks
  place p s j hp := by
    unfold start at hp
    rw [List.getElem?_map] at hp
    obtain ⟨s', -, heq⟩ := Option.map_eq_some_iff.1 hp
    cases heq
    rfl
  all := by
    unfold start
    rw [List.flatMap_map, List.flatMap_map]
    rfl
  complete := nofun

/--
A step of one job leaves the places before and after it alone.
-/
theorem places_put {p : Nat} {s : Sink} {j : Job} (hp : js.places[p]? = some (s, j)) (j' : Job)
    (es : List Event) : ∃ before after, js.places = before ++ (s, j) :: after
      ∧ (js.put p s j' es).places = before ++ (s, j') :: after := by
  obtain ⟨hlt, hp⟩ := List.getElem?_eq_some_iff.1 hp
  obtain ⟨before, after, hplaces, -, hset⟩ := @List.exists_of_set _ p (s, j') js.places hlt
  rw [hp] at hplaces
  exact ⟨before, after, hplaces, hset⟩

theorem Accounts.not_complete (h : js.Accounts sinks b) {p : Nat} {s : Sink} {j j' : Job}
    {es : List Event} (hp : js.places[p]? = some (s, j)) (hgoes : Goes s b j es j') :
    js.complete = false := by
  cases hcomplete : js.complete with
  | false => rfl
  | true => exact absurd (h.complete hcomplete _ (List.mem_of_getElem? hp)) hgoes.ne_joined

theorem Accounts.step (h : js.Accounts sinks b) (hstep : js.Leads js') : js'.Accounts sinks b := by
  cases hstep with
  | @goes p s j j' es hp hgoes =>
    rw [h.batch] at hgoes
    obtain ⟨before, after, hbefore, hafter⟩ := places_put hp j' es
    constructor
    . exact h.batch
    . rw [← h.sinks, hbefore, hafter, List.map_append, List.map_append]
      rfl
    . intro q s' j'' hq
      rw [happened_put]
      split
      . next hpq =>
        subst hpq
        have hself := List.getElem?_set_self (a := (s, j')) (List.getElem?_eq_some_iff.1 hp).1
        cases hself.symm.trans hq
        rw [List.append_assoc, ← hgoes.rest_eq]
        exact h.place p s j hp
      . next hpq =>
        rw [List.append_nil]
        exact h.place q s' j'' ((List.getElem?_set_ne hpq).symm.trans hq)
    . have hall := h.all
      have hlog : (js.put p s j' es).log.map Prod.snd = js.log.map Prod.snd ++ es := by
        simp [put, Function.comp_def]
      rw [hbefore] at hall
      rw [hlog, hafter]
      simp only [List.flatMap_append, List.flatMap_cons, hgoes.rest_eq, List.append_assoc]
        at hall ⊢
      refine List.Perm.trans ?_ hall
      apply List.Perm.append_left
      apply List.perm_append_comm_assoc
    . intro hcomplete
      cases (h.not_complete hp hgoes).symm.trans hcomplete
  | complete hnot hall => exact ⟨h.batch, h.sinks, h.place, h.all, fun _ => hall⟩

theorem distance_of_leads (h : js.Leads js') : js.distance = js'.distance + 1 := by
  unfold distance
  cases h with
  | @goes p s j j' es hp hgoes =>
    obtain ⟨before, after, hbefore, hafter⟩ := places_put hp j' es
    have hcomplete : (js.put p s j' es).complete = js.complete := rfl
    rw [hbefore, hafter, hcomplete]
    simp only [List.map_append, List.map_cons, List.sum_append, List.sum_cons, hgoes.distance_eq]
    omega
  | complete hnot hall =>
    rw [hnot]
    rfl

theorem distance_start (sinks : List Sink) (b : Batch) :
    (start sinks b).distance = 6 * sinks.length + 1 := by
  unfold distance start
  induction sinks with
  | nil => rfl
  | cons s sinks ih =>
    simp only [List.map_cons, List.sum_cons, List.length_cons] at ih ⊢
    have hspawned : Job.spawned.distance = 6 := rfl
    omega

/-!
## Runs
-/

theorem run_of_accounts {moves : List Move} (hrun : js.run? moves = some js')
    (h : js.Accounts sinks b) :
    js'.Accounts sinks b ∧ js.distance = js'.distance + moves.length := by
  induction moves generalizing js with
  | nil =>
    cases hrun
    exact ⟨h, rfl⟩
  | cons m moves ih =>
    obtain ⟨js₁, hstep, hrun⟩ := Option.bind_eq_some_iff.1 hrun
    have hleads := leads_of_step? hstep
    obtain ⟨haccounts, hdistance⟩ := ih hrun (h.step hleads)
    have hone := distance_of_leads hleads
    rw [List.length_cons]
    exact ⟨haccounts, by omega⟩

/--
Something goes on until the loop is done.
-/
theorem exists_step_of_not_complete (h : js.complete = false) : ∃ m, (js.step? m).isSome := by
  by_cases hall : ∀ x ∈ js.places, x.2 = .joined
  . exists .complete
    unfold step?
    have hany : js.places.any (·.2 ≠ .joined) = false := by simpa using hall
    rw [h, hany]
    rfl
  . simp only [not_forall] at hall
    obtain ⟨⟨s, j⟩, hmem, hne⟩ := hall
    obtain ⟨p, hp⟩ := List.mem_iff_getElem?.1 hmem
    cases Job.exists_next s js.batch hne with
    | inl hnext =>
      exists .advance p
      unfold step? progress?
      simpa [hp] using hnext
    | inr hnext =>
      exists .join p
      unfold step? progress?
      simpa [hp] using hnext

theorem Accounts.complete_iff (h : js.Accounts sinks b) :
    js.complete ↔ ∀ m, js.step? m = none := by
  constructor
  . intro hcomplete m
    rw [Option.eq_none_iff_forall_ne_some]
    intro js' hstep
    cases leads_of_step? hstep with
    | goes hp hgoes =>
      rw [h.batch] at hgoes
      cases (h.not_complete hp hgoes).symm.trans hcomplete
    | complete hnot _ => cases hnot.symm.trans hcomplete
  . intro hstuck
    cases hcomplete : js.complete with
    | true => rfl
    | false =>
      obtain ⟨m, hm⟩ := exists_step_of_not_complete hcomplete
      rw [hstuck m] at hm
      cases hm

theorem Accounts.exists_place (h : js.Accounts sinks b) {p : Nat} {s : Sink}
    (hs : sinks[p]? = some s) : ∃ j, js.places[p]? = some (s, j) := by
  rw [← h.sinks, List.getElem?_map] at hs
  obtain ⟨⟨s', j⟩, hp, rfl⟩ := Option.map_eq_some_iff.1 hs
  exact ⟨j, hp⟩

theorem Accounts.happened_prefix (h : js.Accounts sinks b) {p : Nat} {s : Sink}
    (hs : sinks[p]? = some s) : js.happened p <+: Job.account s b := by
  obtain ⟨j, hp⟩ := h.exists_place hs
  exact ⟨_, h.place p s j hp⟩

theorem Accounts.happened_eq (h : js.Accounts sinks b) (hcomplete : js.complete) {p : Nat}
    {s : Sink} (hs : sinks[p]? = some s) : js.happened p = Job.account s b := by
  obtain ⟨j, hp⟩ := h.exists_place hs
  have hj : j = .joined := h.complete hcomplete _ (List.mem_of_getElem? hp)
  have hplace := h.place p s j hp
  rwa [hj, Job.rest, List.append_nil] at hplace

theorem Accounts.log_perm (h : js.Accounts sinks b) (hcomplete : js.complete) :
    (js.log.map Prod.snd).Perm (sinks.flatMap (Job.account · b)) := by
  have hall := h.all
  have hrest : (js.places.flatMap fun x => x.2.rest x.1 b) = [] := by
    rw [List.flatMap_eq_nil_iff]
    intro x hx
    rw [h.complete hcomplete x hx]
    rfl
  rw [hrest, List.append_nil] at hall
  rw [← h.sinks, List.flatMap_map]
  exact hall

end Jobs

/-!
## Lines
-/

namespace Job

def Event.line? : Event → Option Line
  | own l => some l
  | logged l => some l
  | _ => none

def Event.logged? : Event → Option Line
  | logged l => some l
  | _ => none

theorem logged_account (s : Sink) (b : Batch) :
    ((account s b).filterMap Event.logged?).Perm [s.outcomeLine b s.outcome, s.releaseLine] := by
  have hown : (s.ownLines b).filterMap (Event.logged? ∘ .own) = [] :=
    List.filterMap_eq_nil_iff.2 fun _ _ => rfl
  unfold account parting
  simp only [List.filterMap_cons, List.filterMap_append, List.filterMap_map, hown]
  cases s.outcome with
  | panicked panic => apply List.Perm.swap
  | _ => apply List.Perm.refl

theorem lines_account (s : Sink) (b : Batch) :
    ((account s b).filterMap Event.line?).Perm
      (s.ownLines b ++ [s.outcomeLine b s.outcome, s.releaseLine]) := by
  have hown : (s.ownLines b).filterMap (Event.line? ∘ .own) = s.ownLines b := List.filterMap_some
  unfold account parting
  simp only [List.filterMap_cons, List.filterMap_append, List.filterMap_map, hown]
  apply List.Perm.append_left
  cases s.outcome with
  | panicked panic => apply List.Perm.swap
  | _ => apply List.Perm.refl

end Job

namespace Jobs

/--
The lines of the dispatch, without those of the sinks themselves.
-/
def logged (js : Jobs) : List Line :=
  (js.log.map Prod.snd).filterMap Job.Event.logged?

def lines (js : Jobs) : List Line :=
  (js.log.map Prod.snd).filterMap Job.Event.line?

variable {js js' : Jobs} {sinks : List Sink} {b : Batch}

theorem Accounts.logged_perm (h : js.Accounts sinks b) (hcomplete : js.complete) :
    js.logged.Perm (sinks.flatMap fun s => [s.outcomeLine b s.outcome, s.releaseLine]) := by
  refine ((h.log_perm hcomplete).filterMap _).trans ?_
  rw [List.filterMap_flatMap]
  apply List.Perm.flatMap_left
  intro s _
  apply Job.logged_account

theorem Accounts.lines_perm (h : js.Accounts sinks b) (hcomplete : js.complete) :
    js.lines.Perm
      (sinks.flatMap fun s => s.ownLines b ++ [s.outcomeLine b s.outcome, s.releaseLine]) := by
  refine ((h.log_perm hcomplete).filterMap _).trans ?_
  rw [List.filterMap_flatMap]
  apply List.Perm.flatMap_left
  intro s _
  apply Job.lines_account

end Jobs

/-!
## The jobs as an outbox
-/

/--
A station that has come to a stage with the only batch there is.
-/
def Stage.station (s : Sink) (b : Batch) : Stage → Station
  | waiting => ⟨s, .wide, [], 0⟩
  | handed => ⟨s, .wide, [b], 0⟩
  | released => ⟨s, .wide, [b], 1⟩

def Job.stage : Job → Stage
  | spawned => .waiting
  | delivering | returned _ | leaving _ => .handed
  | closed _ | ended _ | joined => .released

theorem Job.Goes.stage_cases {s : Sink} {b : Batch} {j j' : Job} {es : List Event}
    (h : Goes s b j es j') :
    j'.stage = j.stage ∨ j.stage = .waiting ∧ j'.stage = .handed
      ∨ j.stage = .handed ∧ j'.stage = .released := by
  cases h with
  | hand => exact .inr (.inl ⟨rfl, rfl⟩)
  | close panic => exact .inr (.inr ⟨rfl, rfl⟩)
  | _ => exact .inl rfl

namespace Jobs

/--
An outbox with the one dispatch that the jobs are about.
-/
def outbox (js : Jobs) : Outbox :=
  ⟨js.places.map fun x => x.2.stage.station x.1 js.batch,
    [⟨js.batch, js.places.map (·.2.stage)⟩]⟩

variable {js js' : Jobs} {sinks : List Sink} {b : Batch}

theorem set_eq_self {α : Type} {as : List α} {p : Nat} {a : α} (h : as[p]? = some a) :
    as.set p a = as := by
  obtain ⟨hp, rfl⟩ := List.getElem?_eq_some_iff.1 h
  apply List.set_getElem_self hp

/--
A step of the jobs is one of the outbox, or none.
-/
theorem outbox_of_leads (h : js.Leads js') :
    js'.outbox = js.outbox
      ∨ (∃ p lines, js.outbox.hand? 0 p = some (js'.outbox, lines))
      ∨ ∃ p outcome lines, js.outbox.release? 0 p outcome = some (js'.outbox, lines) := by
  cases h with
  | @goes p s j j' es hp hgoes =>
    have hdispatch : js.outbox.inFlight[0]? = some ⟨js.batch, js.places.map (·.2.stage)⟩ := rfl
    have hstation : js.outbox.stations[p]? = some (j.stage.station s js.batch) := by
      unfold outbox
      rw [List.getElem?_map, hp]
      rfl
    have hstage : (js.places.map (·.2.stage))[p]? = some j.stage := by
      rw [List.getElem?_map, hp]
      rfl
    have hput : (js.put p s j' es).outbox
        = ⟨js.outbox.stations.set p (j'.stage.station s js.batch),
          [⟨js.batch, (js.places.map (·.2.stage)).set p j'.stage⟩]⟩ := by
      unfold outbox put
      rw [List.map_set, List.map_set]
    rw [hput]
    obtain hsame | ⟨hj, hj'⟩ | ⟨hj, hj'⟩ := hgoes.stage_cases
    . left
      rw [hsame, set_eq_self hstation, set_eq_self hstage]
      rfl
    . rw [hj] at hstage hstation
      refine .inr (.inl ⟨p, s.ownLines js.batch, ?_⟩)
      unfold Outbox.hand?
      rw [hdispatch, hstation, hj']
      dsimp only
      rw [if_pos hstage]
      rfl
    . rw [hj] at hstage hstation
      refine .inr (.inr ⟨p, s.outcome, [s.outcomeLine js.batch s.outcome, s.releaseLine], ?_⟩)
      unfold Outbox.release?
      rw [hdispatch, hstation, hj']
      dsimp only
      rw [if_pos hstage]
      rfl
  | complete _ _ => exact .inl rfl

theorem Accounts.outbox_eq (h : js.Accounts sinks b) (hcomplete : js.complete) :
    js.outbox = ⟨sinks.map (Stage.released.station · b), [⟨b, sinks.map fun _ => .released⟩]⟩ := by
  have hreleased (x : Sink × Job) (hx : x ∈ js.places) : x.2.stage = .released := by
    rw [h.complete hcomplete x hx]
    rfl
  unfold outbox
  rw [← h.sinks, List.map_map, List.map_map, h.batch, List.map_congr_left hreleased]
  congr 1
  apply List.map_congr_left
  intro x hx
  rw [hreleased x hx]
  rfl

end Jobs

namespace Outbox

theorem deliver_waiting (s : Sink) (b : Batch) (before after : List Station)
    {past : List Stage} (hpast : past.length = before.length) (future : List Stage) :
    deliver ⟨before ++ Stage.waiting.station s b :: after, [⟨b, past ++ .waiting :: future⟩]⟩ 0
        before.length
      = (⟨before ++ Stage.released.station s b :: after, [⟨b, past ++ .released :: future⟩]⟩,
        s.ownLines b ++ [s.outcomeLine b s.outcome, s.releaseLine]) := by
  unfold deliver
  rw [deliver?_eq]
  simp [Stage.station, Gate.pass?, Station.serve, Station.serveLines, ← hpast]

/--
Sinks behind open gates are served one after the other.
-/
theorem deliverAll_wide (b : Batch) (before after : List Sink) :
    deliverAll
        ⟨before.map (Stage.released.station · b) ++ after.map (Stage.waiting.station · b),
          [⟨b, before.map (fun _ => .released) ++ after.map fun _ => .waiting⟩]⟩
        ((List.range' before.length after.length).map (0, ·))
      = (⟨(before ++ after).map (Stage.released.station · b),
          [⟨b, (before ++ after).map fun _ => .released⟩]⟩,
        after.flatMap fun s => s.ownLines b ++ [s.outcomeLine b s.outcome, s.releaseLine]) := by
  induction after generalizing before with
  | nil => simp [deliverAll]
  | cons s after ih =>
    have hlength : (before.map fun _ => Stage.released).length
        = (before.map (Stage.released.station · b)).length := by
      rw [List.length_map, List.length_map]
    have hfirst := deliver_waiting s b (before.map (Stage.released.station · b))
      (after.map (Stage.waiting.station · b)) hlength (after.map fun _ => .waiting)
    have ih := ih (before ++ [s])
    simp only [List.map_append, List.map_cons, List.map_nil, List.append_assoc, List.length_append,
      List.length_cons, List.length_nil, List.nil_append, List.cons_append, List.length_map]
      at hfirst ih
    simp only [List.map_append, List.map_cons, List.length_cons, List.range'_succ, deliverAll,
      List.flatMap_cons, hfirst, ih]

theorem settle_wide (sinks : List Sink) (b : Batch) :
    ((ofStations (sinks.map (.ofSink · .wide))).dispatch b).settle
      = (⟨sinks.map (Stage.released.station · b), [⟨b, sinks.map fun _ => .released⟩]⟩,
        sinks.flatMap fun s => s.ownLines b ++ [s.outcomeLine b s.outcome, s.releaseLine]) := by
  have hall := deliverAll_wide b [] sinks
  have hstart : (ofStations (sinks.map (.ofSink · .wide))).dispatch b
      = ⟨sinks.map (Stage.waiting.station · b), [⟨b, sinks.map fun _ => .waiting⟩]⟩ := by
    rw [List.map_const', ← List.length_map (Station.ofSink · .wide)]
    rfl
  have hcells : cells ⟨sinks.map (Stage.waiting.station · b), [⟨b, sinks.map fun _ => .waiting⟩]⟩
      = (List.range' 0 sinks.length).map (0, ·) := by
    unfold cells
    simp [List.range_eq_range']
  rw [settle_eq, hstart, hcells]
  exact hall

end Outbox

/-!
## A whole dispatch
-/

namespace Jobs

/--
Each place is served as the account of its sink says, which says nothing of the other sinks, so a
sink that is listed more than once is served as often. Something goes on until all of that has
happened in every place and the loop is done. Each place then has left two lines, of which the
outcome decides the first one. The lines and what becomes of the stations are those of an outbox
that is settled.
-/
theorem serves_independently {sinks : List Sink} {b : Batch} {moves : List Move} {js : Jobs}
    (hrun : (start sinks b).run? moves = some js) :
    moves.length ≤ 6 * sinks.length + 1
      ∧ (js.complete ↔ ∀ m, js.step? m = none)
      ∧ (∀ p s, sinks[p]? = some s → js.happened p <+: Job.account s b)
      ∧ (js.complete →
        (∀ p s, sinks[p]? = some s → js.happened p = Job.account s b)
          ∧ (∀ sinks' moves' js' p, (start sinks' b).run? moves' = some js' → js'.complete →
            p < sinks.length → sinks'[p]? = sinks[p]? → js'.happened p = js.happened p)
          ∧ js.logged.Perm (sinks.flatMap fun s => [
            match s.outcome with
            | .received =>
              ⟨.debug, "Sink " ++ s.name ++ " received " ++ Decimal.text b.length ++ " metrics"⟩
            | .failed (.io text) =>
              ⟨.error, "Exception in sink " ++ s.name ++ ": " ++ ("sink I/O error: " ++ text)⟩
            | .failed (.failed text) =>
              ⟨.error, "Exception in sink " ++ s.name ++ ": " ++ ("sink failed: " ++ text)⟩
            | .panicked (some message) =>
              ⟨.error, "Sink task failed: " ++ ("task # panicked with message "
                ++ Text.quoted message)⟩
            | .panicked none => ⟨.error, "Sink task failed: " ++ "task # panicked"⟩,
            ⟨.debug, "Released sink " ++ s.name⟩])
          ∧ ∃ o lines, ((Outbox.ofStations (sinks.map (.ofSink · .wide))).dispatch b).settle
              = (o, lines)
            ∧ js.outbox = o ∧ js.lines.Perm lines) := by
  obtain ⟨haccounts, hdistance⟩ := run_of_accounts hrun (accounts_start sinks b)
  rw [distance_start] at hdistance
  refine ⟨by omega, haccounts.complete_iff, fun p s => haccounts.happened_prefix, ?_⟩
  intro hcomplete
  have heach (p : Nat) (s : Sink) (hs : sinks[p]? = some s) : js.happened p = Job.account s b :=
    haccounts.happened_eq hcomplete hs
  refine ⟨heach, ?_, ?_, _, _, Outbox.settle_wide sinks b, haccounts.outbox_eq hcomplete,
    haccounts.lines_perm hcomplete⟩
  . intro sinks' moves' js' p hrun' hcomplete' hp hsame
    have haccounts' := (run_of_accounts hrun' (accounts_start sinks' b)).1
    have hs := List.getElem?_eq_getElem hp
    rw [heach p _ hs, haccounts'.happened_eq hcomplete' (hsame.trans hs)]
  . refine (haccounts.logged_perm hcomplete).trans (List.Perm.of_eq ?_)
    congr 1
    funext s
    obtain ⟨name, outcome, announces⟩ := s
    rcases outcome with _ | (_ | _) | (_ | _) <;> rfl

/--
Four sinks of which one fails, two panic and one is listed twice, with their steps interleaved.
-/
theorem serves_independently_mixed :
    let failing : Sink := ⟨"failing", .failed (.failed "backend unavailable"), false⟩
    let panicking : Sink := ⟨"panicking", .panicked "sink blew up", false⟩
    let recording : Sink := ⟨"recording", .received, false⟩
    let speechless : Sink := ⟨"speechless", .panicked none, false⟩
    let sinks := [failing, panicking, recording, recording, speechless]
    let b : Batch := [("requests", "4"), ("latency", "2.71")]
    let moves := (List.replicate 5 [2, 0, 4, 3, 1]).flatten.map Move.advance
      ++ [1, 3, 0, 4, 2].map Move.join ++ [.complete]
    ∃ js, (start sinks b).run? moves = some js
      ∧ js.complete
      ∧ js.happened 1 = [.handed b, .returned (.panicked "sink blew up"), .closed,
        .logged ⟨.debug, "Released sink panicking"⟩,
        .logged ⟨.error, "Sink task failed: task # panicked with message \"sink blew up\""⟩]
      ∧ js.happened 2 = js.happened 3
      ∧ js.logged.Perm [
        ⟨.error, "Exception in sink failing: sink failed: backend unavailable"⟩,
        ⟨.debug, "Released sink failing"⟩,
        ⟨.error, "Sink task failed: task # panicked with message \"sink blew up\""⟩,
        ⟨.debug, "Released sink panicking"⟩,
        ⟨.debug, "Sink recording received 2 metrics"⟩, ⟨.debug, "Released sink recording"⟩,
        ⟨.debug, "Sink recording received 2 metrics"⟩, ⟨.debug, "Released sink recording"⟩,
        ⟨.error, "Sink task failed: task # panicked"⟩, ⟨.debug, "Released sink speechless"⟩] := by
  intro failing panicking recording speechless sinks b moves
  have hsome : ((start sinks b).run? moves).any (·.complete) := by decide +kernel
  obtain ⟨js, hrun, hcomplete⟩ := (Option.any_eq_true _ _).1 hsome
  obtain ⟨-, -, -, hdone⟩ := serves_independently hrun
  obtain ⟨heach, -, hlogged, -⟩ := hdone hcomplete
  refine ⟨js, hrun, hcomplete, ?_, ?_, hlogged.trans (.of_eq (by decide +kernel))⟩
  . rw [heach 1 panicking rfl]
    decide +kernel
  . rw [heach 2 recording rfl, heach 3 recording rfl]

end Jobs

end Metering
