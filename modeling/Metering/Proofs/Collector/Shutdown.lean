import Mathlib.Control.Monad.Basic
import Metering.Proofs.Collector.Session
import Metering.Proofs.Outbox.Settle
import Metering.Collector.Service

/-!
This module contains that a shutdown cuts the queue of requests in two. Those before it are carried
out and answered as if nothing came after them, and the service then stops as if nobody could send
any more. Those behind it are never carried out, and whoever waits for a reply learns so.
-/

namespace Metering

deriving instance DecidableEq for Reply
deriving instance DecidableEq for Answer

/-!
## Requests that are carried out
-/

namespace Collector

def carryOut (c : Collector) : Request → Collector
  | .command command _ => (c.handle command).collector
  | .shutdown => c

/--
The collector after the commands of some requests.
-/
def carryAll (c : Collector) (qs : List Request) : Collector :=
  qs.foldl carryOut c

/--
What is logged if a request is a snapshot that nobody waits for and that is refused.
-/
def warning (c : Collector) : Request → List Line
  | .command (.submit payload) _ =>
    match (c.accept payload).1 with
    | .ok _ => []
    | .error e =>
      [⟨.warn, "Dropping snapshot of " ++ Decimal.text payload.length ++ " bytes: " ++ e.message⟩]
  | _ => []

def warnings (c : Collector) : List Request → List Line
  | [] => []
  | q :: qs => c.warning q ++ (c.carryOut q).warnings qs

end Collector

namespace Service

variable {c : Collector} {cs : List Request}

theorem serve_append (c : Collector) (h : .shutdown ∉ cs) (qs : List Request) :
    serve c (cs ++ qs) =
      let first := serve c cs
      let second := serve (c.carryAll cs) qs
      ⟨second.collector, first.answers ++ second.answers, first.shipments ++ second.shipments,
        first.lines ++ second.lines, second.behind⟩ := by
  induction cs generalizing c with
  | nil => rfl
  | cons q cs ih =>
    cases q with
    | shutdown => exact absurd List.mem_cons_self h
    | command command abandoned =>
      have ih := ih (c.handle command).collector fun hmem => h (List.mem_cons_of_mem _ hmem)
      simp only [List.cons_append, serve, ih, List.append_assoc]
      rfl

theorem serve_of_no_shutdown (c : Collector) (h : .shutdown ∉ cs) :
    (serve c cs).collector = c.carryAll cs ∧ (serve c cs).behind = none
      ∧ (serve c cs).answers.length = cs.length := by
  induction cs generalizing c with
  | nil => exact ⟨rfl, rfl, rfl⟩
  | cons q cs ih =>
    cases q with
    | shutdown => exact absurd List.mem_cons_self h
    | command command abandoned =>
      obtain ⟨hcollector, hbehind, hlength⟩ :=
        ih (c.handle command).collector fun hmem => h (List.mem_cons_of_mem _ hmem)
      exact ⟨hcollector, hbehind, congrArg (· + 1) hlength⟩

/--
The answer to a request that is carried out.
-/
def answer (c : Collector) (command : Command) (abandoned : Bool) : Answer :=
  if (Request.command command abandoned).awaited?.isSome then .reply (c.handle command).reply
  else .sent

theorem answer_serve (c : Collector) {before after : List Request} {command : Command}
    {abandoned : Bool} (h : .shutdown ∉ before) :
    (serve c (before ++ .command command abandoned :: after)).answers[before.length]?
      = some (answer (c.carryAll before) command abandoned) := by
  obtain ⟨-, -, hlength⟩ := serve_of_no_shutdown c h
  rw [serve_append c h]
  dsimp only
  rw [← hlength, List.getElem?_append_right (Nat.le_refl _), Nat.sub_self]
  rfl

theorem not_pending_of_mem_serve {qs : List Request} {a : Answer} (h : a ∈ (serve c qs).answers)
    (t : Topic) : a ≠ .pending t := by
  induction qs generalizing c with
  | nil => cases h
  | cons q qs ih =>
    cases q with
    | shutdown =>
      rw [List.mem_singleton.1 h]
      nofun
    | command command abandoned =>
      simp only [serve] at h
      cases h with
      | head =>
        split <;> nofun
      | tail _ h => apply ih h

end Service

/-!
## Warnings
-/

/--
Whether there is no warning among some lines.
-/
def Line.Calm (ls : List Line) : Prop :=
  ls.filter (·.level = .warn) = []

theorem Line.Calm.append {ls ls' : List Line} (h : Line.Calm ls) (h' : Line.Calm ls') :
    Line.Calm (ls ++ ls') := by
  unfold Line.Calm at *
  rw [List.filter_append, h, h', List.append_nil]

namespace Collector

theorem calm_mergeLines (r : Registry) (ts : List Tracked) : Line.Calm (r.mergeLines ts) := by
  unfold Line.Calm Registry.mergeLines
  split
  . rfl
  . rw [List.filter_eq_nil_iff]
    intro l hl
    obtain ⟨t, -, rfl⟩ := List.mem_map.1 hl
    nofun

theorem calm_accept (c : Collector) (payload : Bytes) : Line.Calm (c.accept payload).2.2 := by
  unfold accept
  split
  . rfl
  . next incoming _ =>
    have hmerge := calm_mergeLines c.registry incoming.entries
    dsimp only
    split
    . exact hmerge
    . exact hmerge.append rfl

theorem calm_ship (c : Collector) (cause : Cause) (b : Batch) :
    Line.Calm (c.ship cause b).2.2 := by
  unfold ship
  split <;> rfl

theorem calm_flush (c : Collector) : Line.Calm c.flush.2.2.2 :=
  calm_ship { c with registry := c.registry.reset } .flush c.registry.pairs

theorem calm_ingest (c : Collector) (payload : Bytes) :
    Line.Calm (c.ingest payload).2.2.2
      ∧ submitLines payload (c.ingest payload).1 = c.warning (.command (.submit payload) false) := by
  have haccept := c.calm_accept payload
  unfold ingest warning
  dsimp only
  cases hc : c.accept payload with
  | mk result rest =>
    rw [hc] at haccept
    cases result with
    | error e => exact ⟨haccept, rfl⟩
    | ok n =>
      dsimp only
      split
      . exact ⟨haccept.append (calm_flush rest.1), rfl⟩
      . exact ⟨haccept, rfl⟩

theorem filter_lines_handle (c : Collector) (command : Command) (abandoned : Bool) :
    (c.handle command).lines.filter (·.level = .warn) = c.warning (.command command abandoned) := by
  cases command with
  | ingest payload => exact (c.calm_ingest payload).1
  | submit payload =>
    obtain ⟨hcalm, hlines⟩ := c.calm_ingest payload
    have hwarning : (c.warning (.command (.submit payload) abandoned)).filter (·.level = .warn)
        = c.warning (.command (.submit payload) abandoned) := by
      unfold warning
      dsimp only
      split <;> rfl
    unfold Line.Calm at hcalm
    rw [← hwarning]
    simp only [handle, List.filter_append, hcalm, hlines, List.nil_append]
    rfl
  | flush => exact c.calm_flush
  | systemState state updated => exact c.calm_ship _ _
  | get name => rfl

theorem calm_finalFlush (c : Collector) : Line.Calm c.finalFlush.lines := by
  unfold finalFlush
  split
  . exact c.calm_flush
  . rfl

end Collector

theorem Command.calm_abandonedLines (command : Command) : Line.Calm command.abandonedLines := by
  unfold abandonedLines
  split <;> rfl

theorem Station.calm_serveLines (s : Station) (b : Batch) : Line.Calm (s.serveLines b) := by
  have houtcome : (s.sink.outcomeLine b s.sink.outcome).level ≠ .warn := by
    unfold Sink.outcomeLine
    split <;> simp
  unfold Line.Calm
  rw [List.filter_eq_nil_iff]
  simp only [serveLines, Sink.ownLines, List.mem_append, List.mem_cons, List.not_mem_nil, or_false,
    decide_eq_true_eq]
  rintro l (hl | rfl | rfl)
  . split at hl
    . obtain ⟨pair, -, rfl⟩ := List.mem_map.1 hl
      simp
    . cases hl
  . exact houtcome
  . simp [Sink.releaseLine]

theorem Outbox.calm_deliver (o : Outbox) (i p : Nat) : Line.Calm (o.deliver i p).2 := by
  obtain ⟨-, hsame⟩ | ⟨d, s, gate, -, -, -, -, hserve⟩ := o.deliver_cases i p
  . rw [hsame]
    rfl
  . rw [hserve]
    apply s.calm_serveLines

theorem Outbox.calm_deliverAll (o : Outbox) (cells : List (Nat × Nat)) :
    Line.Calm (o.deliverAll cells).2 := by
  induction cells generalizing o with
  | nil => rfl
  | cons cell cells ih =>
    exact (o.calm_deliver cell.1 cell.2).append (ih (o.deliver cell.1 cell.2).1)

theorem Outbox.calm_settle (o : Outbox) : Line.Calm o.settle.2 :=
  o.calm_deliverAll o.cells

namespace Service

theorem filter_lines_serve (c : Collector) (h : .shutdown ∉ cs) :
    (serve c cs).lines.filter (·.level = .warn) = c.warnings cs := by
  induction cs generalizing c with
  | nil => rfl
  | cons q cs ih =>
    cases q with
    | shutdown => exact absurd List.mem_cons_self h
    | command command abandoned =>
      have ih := ih (c.handle command).collector fun hmem => h (List.mem_cons_of_mem _ hmem)
      have hlines := c.filter_lines_handle command abandoned
      have habandoned : Line.Calm (if abandoned then command.abandonedLines else []) := by
        split
        . apply command.calm_abandonedLines
        . rfl
      unfold Line.Calm at habandoned
      simp only [serve]
      rw [List.filter_append, List.filter_append, hlines, habandoned, ih, List.append_nil]
      rfl

/-!
## Stopping
-/

theorem hangUp_of_serving {s : Service} (h : s.phase = .serving) :
    s.hangUp.1 =
      let c := s.collector.finalFlush.collector
      ⟨{ c with outbox := c.outbox.settle.1 },
        if c.outbox.settle.1.idle then .stopped else .finishing, s.unanswered⟩ := by
  unfold hangUp close advance
  rw [h]
  dsimp only
  cases s.collector.finalFlush.collector.outbox.settle.1.idle with
  | false => rfl
  | true => rfl

theorem calm_hangUp (s : Service) : Line.Calm s.hangUp.2 := by
  have hclose : Line.Calm s.close.2 := by
    unfold close
    split
    . apply s.collector.calm_finalFlush
    . rfl
  have hsettle := s.close.1.collector.outbox.calm_settle
  unfold hangUp advance
  apply hclose.append
  dsimp only
  split
  . exact hsettle.append rfl
  . exact hsettle

theorem post_of_no_shutdown {s : Service} (hs : s.phase = .serving) (h : .shutdown ∉ cs) :
    (s.post cs).1 = { s with
        collector := { s.collector.carryAll cs with
          outbox := (s.collector.carryAll cs).outbox.settle.1 } }
      ∧ (s.post cs).2.1 = (serve s.collector cs).answers := by
  obtain ⟨hcollector, hbehind, -⟩ := serve_of_no_shutdown s.collector h
  unfold post
  rw [hs]
  dsimp only
  rw [hbehind, hcollector]
  unfold advance
  dsimp only
  rw [if_neg fun hstop => nomatch hstop.1]
  exact ⟨rfl, rfl⟩

end Service

/-!
## The two ways to stop
-/

namespace Collector

theorem outbox_ship (c : Collector) (cause : Cause) (b : Batch) :
    (c.ship cause b).1.outbox
      = if c.sinks = 0 then c.outbox.tidy else c.outbox.tidy.dispatch b := by
  unfold ship
  split <;> rfl

theorem Lasting.carryAll {P : Collector → Prop} {c : Collector} (hP : Lasting P) (h : P c)
    (qs : List Request) : P (c.carryAll qs) := by
  induction qs generalizing c with
  | nil => exact h
  | cons q qs ih =>
    cases q with
    | shutdown => exact ih h
    | command command abandoned => exact ih (hP.handle h command)

theorem lasting_orderly : Lasting fun c => c.outbox.Orderly :=
  lasting_outbox (fun _ h => h.tidy) fun _ b h => h.dispatch b

theorem lasting_open : Lasting fun c => c.outbox.Open :=
  lasting_outbox (fun _ h => h) fun _ _ h => h

theorem registry_finalFlush (c : Collector) :
    c.finalFlush.collector.registry = if c.pending then c.registry.reset else c.registry := by
  unfold finalFlush
  split
  . apply registry_flush
  . rfl

theorem outbox_finalFlush (c : Collector) :
    c.finalFlush.collector.outbox =
      if c.pending then
        if c.sinks = 0 then c.outbox.tidy else c.outbox.tidy.dispatch c.registry.pairs
      else c.outbox := by
  unfold finalFlush
  split
  . exact outbox_ship { c with registry := c.registry.reset } .flush c.registry.pairs
  . rfl

/--
It makes no difference to the last flush whether the deliveries before it have taken place.
-/
theorem finalFlush_settle (c : Collector) :
    let d := { c with outbox := c.outbox.settle.1 }
    d.finalFlush.collector.registry = c.finalFlush.collector.registry
      ∧ d.finalFlush.collector.outbox.settle.1.Similar c.finalFlush.collector.outbox.settle.1 := by
  intro d
  have hsinks : d.sinks = c.sinks := (c.outbox.length_deliverAll c.outbox.cells).1
  have hpending : d.pending = c.pending := rfl
  refine ⟨?_, ?_⟩
  . rw [registry_finalFlush, registry_finalFlush, hpending]
  . rw [outbox_finalFlush, outbox_finalFlush, hpending, hsinks]
    split
    . split
      . apply Outbox.similar_settle_tidy_settle
      . apply Outbox.similar_settle_dispatch_settle
    . unfold Outbox.Similar
      rw [Outbox.settle_settle]

end Collector

namespace Service

variable {s : Service} {cs : List Request}

/--
What becomes of the answer to a request behind a shutdown.
-/
def unheard (q : Request) : Answer :=
  match q.awaited? with
  | some t => .disconnected (.receiving t)
  | none => .sent

theorem resolve_untaken (q : Request) : (untaken q).resolve = unheard q := by
  unfold untaken unheard
  cases q.awaited? <;> rfl

def topic? : Answer → Option Topic
  | .pending t => some t
  | _ => none

theorem topic?_untaken (q : Request) : topic? (untaken q) = q.awaited? := by
  unfold untaken
  cases q.awaited? <;> rfl

theorem settleAnswers_eq (s : Service) (answers : List Answer) :
    s.settleAnswers answers =
      if s.phase = .stopped then (s, answers.map Answer.resolve)
      else ({ s with unanswered := s.unanswered ++ answers.filterMap topic? }, answers) :=
  rfl

theorem settleAnswers_cut (s : Service) (c : Collector) (cs rest : List Request) :
    s.settleAnswers ((serve c cs).answers ++ .sent :: rest.map untaken) =
      ({ s with unanswered := s.unanswered
          ++ if s.phase = .stopped then [] else rest.filterMap Request.awaited? },
        (serve c cs).answers
          ++ .sent :: rest.map (if s.phase = .stopped then unheard else untaken)) := by
  have hresolve : (serve c cs).answers.map Answer.resolve = (serve c cs).answers := by
    have hthis : ∀ a ∈ (serve c cs).answers, a.resolve = a := by
      intro a ha
      cases a with
      | pending t => exact absurd rfl (not_pending_of_mem_serve ha t)
      | _ => rfl
    rw [List.map_congr_left hthis, List.map_id']
  have htopics : (serve c cs).answers.filterMap topic? = [] := by
    rw [List.filterMap_eq_nil_iff]
    intro a ha
    cases a with
    | pending t => exact absurd rfl (not_pending_of_mem_serve ha t)
    | _ => rfl
  have hrest : (rest.map untaken).map Answer.resolve = rest.map unheard := by
    rw [List.map_map]
    exact List.map_congr_left fun q _ => resolve_untaken q
  have hawaited : (Answer.sent :: rest.map untaken).filterMap topic?
      = rest.filterMap Request.awaited? := by
    rw [List.filterMap_cons_none rfl, List.filterMap_map]
    exact List.filterMap_congr fun q _ => topic?_untaken q
  rw [settleAnswers_eq]
  split
  . rw [List.map_append, List.map_cons, hresolve, hrest, List.append_nil]
    rfl
  . rw [List.filterMap_append, htopics, hawaited, List.nil_append]

theorem post_shutdown {s : Service} (hs : s.phase = .serving) (h : .shutdown ∉ cs)
    (rest : List Request) :
    s.post (cs ++ .shutdown :: rest) =
      let ended := { s with collector := s.collector.carryAll cs }.hangUp
      let settled := ended.1.settleAnswers
        ((serve s.collector cs).answers ++ .sent :: rest.map untaken)
      (settled.1, settled.2, (serve s.collector cs).lines
        ++ ⟨.debug, "Metrics collector service shutting down"⟩ :: ended.2) := by
  unfold post
  rw [hs]
  dsimp only
  rw [serve_append s.collector h]
  simp only [serve, List.append_assoc, List.nil_append, List.cons_append, hangUp]

theorem post_cut {s : Service} (hs : s.phase = .serving) (h : .shutdown ∉ cs)
    (rest : List Request) :
    s.post (cs ++ .shutdown :: rest) =
      let ended := { s with collector := s.collector.carryAll cs }.hangUp
      ({ ended.1 with unanswered := s.unanswered
          ++ if ended.1.phase = .stopped then [] else rest.filterMap Request.awaited? },
        (serve s.collector cs).answers
          ++ .sent :: rest.map (if ended.1.phase = .stopped then unheard else untaken),
        (serve s.collector cs).lines
          ++ ⟨.debug, "Metrics collector service shutting down"⟩ :: ended.2) := by
  have hunanswered : { s with collector := s.collector.carryAll cs }.hangUp.1.unanswered
      = s.unanswered := by
    rw [hangUp_of_serving (s := { s with collector := s.collector.carryAll cs }) hs]
  rw [post_shutdown hs h]
  dsimp only
  rw [settleAnswers_cut, hunanswered]

theorem hangUp_cut (hs : s.phase = .serving) (h : .shutdown ∉ cs) :
    let ended := (s.post cs).1.hangUp.1
    let cut := { s with collector := s.collector.carryAll cs }.hangUp.1
    cut.collector.registry = ended.collector.registry
      ∧ cut.collector.outbox.Similar ended.collector.outbox ∧ cut.phase = ended.phase := by
  intro ended cut
  have hserving : (s.post cs).1.phase = .serving := by
    rw [(post_of_no_shutdown hs h).1]
    exact hs
  have hended : ended = _ := hangUp_of_serving hserving
  have hcut : cut = _ := hangUp_of_serving (s := { s with collector := s.collector.carryAll cs }) hs
  rw [(post_of_no_shutdown hs h).1] at hended
  obtain ⟨hregistry, hsimilar⟩ := (s.collector.carryAll cs).finalFlush_settle
  rw [hended, hcut]
  refine ⟨hregistry.symm, hsimilar.symm, ?_⟩
  dsimp only
  rw [hsimilar.idle]

theorem finish_eq (h : s.phase ≠ .serving) :
    s.finish.1 =
      let outbox := s.collector.outbox.openGates.settle.1
      ⟨{ s.collector with outbox := outbox },
        if s.phase = .finishing ∧ outbox.idle then .stopped else s.phase, s.unanswered⟩ := by
  unfold finish hangUp close advance
  cases hphase : s.phase with
  | serving => exact absurd hphase h
  | finishing =>
    dsimp only
    split <;> rfl
  | stopped => rfl

theorem stopped_finish (h : s.phase ≠ .serving) (horderly : s.collector.outbox.Orderly) :
    s.finish.1.phase = .stopped := by
  have hidle := horderly.openGates.idle_settle s.collector.outbox.open_openGates
  rw [finish_eq h]
  dsimp only
  cases hphase : s.phase with
  | serving => exact absurd hphase h
  | finishing => rw [if_pos ⟨rfl, hidle⟩]
  | stopped => exact if_neg fun hstop => nomatch hstop.1

theorem lateAnswers_finish (h : s.phase ≠ .serving) : s.finish.1.lateAnswers = s.lateAnswers := by
  rw [finish_eq h]
  rfl

/--
How a service ends does not depend on the dispatches that are finished.
-/
theorem finish_of_similar {s' : Service} (h : s.phase ≠ .serving) (hphase : s.phase = s'.phase)
    (hregistry : s.collector.registry = s'.collector.registry)
    (hsimilar : s.collector.outbox.Similar s'.collector.outbox) :
    s.finish.1.collector.registry = s'.finish.1.collector.registry
      ∧ s.finish.1.collector.outbox.stations = s'.finish.1.collector.outbox.stations := by
  rw [finish_eq h, finish_eq (hphase ▸ h)]
  exact ⟨hregistry, hsimilar.openGates.settle.stations⟩

theorem not_serving_hangUp (hs : s.phase = .serving) : s.hangUp.1.phase ≠ .serving := by
  rw [hangUp_of_serving hs]
  dsimp only
  split <;> nofun

theorem orderly_hangUp (hs : s.phase = .serving) (h : s.collector.outbox.Orderly) :
    s.hangUp.1.collector.outbox.Orderly := by
  rw [hangUp_of_serving hs]
  exact (Collector.lasting_orderly.finalFlush h).settle

theorem stopped_hangUp (hs : s.phase = .serving) (horderly : s.collector.outbox.Orderly)
    (hopen : s.collector.outbox.Open) : s.hangUp.1.phase = .stopped := by
  have horderly := Collector.lasting_orderly.finalFlush horderly
  have hopen := Collector.lasting_open.finalFlush hopen
  rw [hangUp_of_serving hs]
  dsimp only
  rw [horderly.idle_settle hopen, if_pos rfl]

/--
A service that takes a shutdown answers the requests before it as if it was sent nothing else, each
of them by what the commands before it have led to. It ends up with the same registry and the same
deliveries as if nobody could send any more after those requests. Those behind the shutdown are
answered as well, at once or when the deliveries have ended and the service has stopped, and it warns
of the snapshots that it refuses and of which nobody else would know.
-/
theorem shutdown_cuts_queue {s : Service} (hs : s.phase = .serving) {cs : List Request}
    (hcs : .shutdown ∉ cs) (rest : List Request) :
    let alone := s.post cs
    let ended := alone.1.hangUp.1
    let all := s.post (cs ++ .shutdown :: rest)
    let cut := all.1
    (cut.collector.registry = ended.collector.registry
        ∧ cut.collector.outbox.stations = ended.collector.outbox.stations
        ∧ cut.collector.outbox.tidy = ended.collector.outbox.tidy
        ∧ cut.phase = ended.phase
        ∧ cut.finish.1.collector.registry = ended.finish.1.collector.registry
        ∧ cut.finish.1.collector.outbox.stations = ended.finish.1.collector.outbox.stations)
      ∧ all.2.1 = alone.2.1
        ++ .sent :: rest.map (if cut.phase = .stopped then unheard else untaken)
      ∧ alone.2.1.length = cs.length
      ∧ (∀ (before after : List Request) (command : Command) (abandoned : Bool),
        cs = before ++ .command command abandoned :: after →
          alone.2.1[before.length]? = some (answer (s.collector.carryAll before) command abandoned))
      ∧ cut.lateAnswers = s.lateAnswers ++ (if cut.phase = .stopped then []
        else (rest.filterMap Request.awaited?).map fun t => .disconnected (.receiving t))
      ∧ (s.collector.outbox.Orderly →
        cut.finish.1.phase = .stopped ∧ cut.finish.1.lateAnswers = cut.lateAnswers
          ∧ (s.collector.outbox.Open → cut.phase = .stopped))
      ∧ (∀ t, (Disconnection.receiving t).message
        = (if t = .snapshot then "collector channel closed: " else "")
          ++ ("Failed to receive " ++ t.name ++ " response: channel closed"))
      ∧ all.2.2.filter (·.level = .warn) = s.collector.warnings cs := by
  intro alone ended all cut
  have hall : all = _ := post_cut hs hcs rest
  have halone : alone.2.1 = (serve s.collector cs).answers := (post_of_no_shutdown hs hcs).2
  have hstops : { s with collector := s.collector.carryAll cs }.phase = .serving := hs
  have hclosed := not_serving_hangUp hstops
  obtain ⟨hregistry, hsimilar, hphase⟩ := hangUp_cut hs hcs
  unfold cut
  rw [hall]
  refine ⟨⟨hregistry, hsimilar.stations, hsimilar, hphase, ?_⟩, ?_, ?_, ?_, ?_, ?_, ?_, ?_⟩
  . exact finish_of_similar hclosed hphase hregistry hsimilar
  . rw [halone]
  . rw [halone]
    exact (serve_of_no_shutdown s.collector hcs).2.2
  . intro before after command abandoned heq
    rw [halone, heq]
    apply answer_serve
    intro hmem
    rw [heq] at hcs
    exact hcs (List.mem_append_left _ hmem)
  . rw [lateAnswers, lateAnswers, List.map_append]
    split <;> rfl
  . intro horderly
    have horderly := Collector.lasting_orderly.carryAll horderly cs
    refine ⟨stopped_finish hclosed (orderly_hangUp hstops horderly), lateAnswers_finish hclosed, ?_⟩
    intro hopen
    have hopen := Collector.lasting_open.carryAll hopen cs
    exact stopped_hangUp hstops horderly hopen
  . intro t
    cases t <;> rfl
  . have hcalm := { s with collector := s.collector.carryAll cs }.calm_hangUp
    unfold Line.Calm at hcalm
    rw [List.filter_append, filter_lines_serve s.collector hcs, List.filter_cons_of_neg (by nofun),
      hcalm, List.append_nil]

/--
Snapshots that are merged and refused, a lookup, a state report and a flush before the shutdown, and
another lookup behind it, once with a sink that takes whatever it is given and once with one that
does not.
-/
theorem shutdown_cuts_queue_lookup_behind :
    let fitting := Snapshot.encode [⟨⟨"queue", "", .integerGauge 7, 3⟩, 1, [⟨.integer 6, 2⟩]⟩]
    let refused := Snapshot.encode [⟨⟨"queue", "", .counter 7, 3⟩, 1, []⟩]
    let s (gate : Gate) : Service := ⟨⟨9, .empty, .ofStations [.ofSink .log gate]⟩, .serving, []⟩
    let cs : List Request :=
      [.command (.ingest fitting) false, .command (.submit refused) false,
        .command (.ingest refused) false, .command (.get "queue") false,
        .command (.systemState "Running" 4) false, .command .flush false]
    let rest : List Request := [.command (.get "queue") false, .shutdown, .command .flush true]
    let quick := (s .wide).post (cs ++ .shutdown :: rest)
    let slow := (s (.permits 0)).post (cs ++ .shutdown :: rest)
    let replies : List Answer :=
      [.reply (.ingested (.ok ⟨1, false⟩)), .sent,
        .reply (.ingested (.error (.metric (.typeMismatch "queue" .integerGauge .counter)))),
        .reply (.metric (some ⟨"queue", "", .integerGauge 7, 3⟩)), .sent, .reply (.flushed 2)]
    (quick.1.phase = .stopped
        ∧ quick.2.1 = replies ++ [.sent, .disconnected (.receiving .metric), .sent, .sent]
        ∧ (quick.2.2.filter (·.level = .warn)).length = 1)
      ∧ slow.1.phase = .finishing
      ∧ slow.2.1 = replies ++ [.sent, .pending .metric, .sent, .sent]
      ∧ slow.1.finish.1.phase = .stopped
      ∧ slow.1.finish.1.lateAnswers = [.disconnected (.receiving .metric)] := by
  intro fitting refused s cs rest
  dsimp only
  have hcs : .shutdown ∉ cs := by
    intro hmem
    simp [cs] at hmem
  have horderly (gate : Gate) : (s gate).collector.outbox.Orderly :=
    Outbox.orderly_ofStations [.ofSink .log gate]
  have hopen : (s .wide).collector.outbox.Open := by
    intro station hstation
    rw [List.mem_singleton.1 hstation]
    rfl
  have hwarnings : ((s .wide).collector.warnings cs).length = 1 := by decide +kernel
  have hslow : ((s (.permits 0)).post (cs ++ .shutdown :: rest)).1.phase = .finishing := by
    decide +kernel
  obtain ⟨-, hanswers, -, -, -, hends, -, hlines⟩ :=
    shutdown_cuts_queue (s := s .wide) rfl hcs rest
  have hquick := (hends (horderly .wide)).2.2 hopen
  rw [hquick] at hanswers
  obtain ⟨-, hanswers', -, -, hlate, hends', -⟩ :=
    shutdown_cuts_queue (s := s (.permits 0)) rfl hcs rest
  obtain ⟨hstopped, hkept, -⟩ := hends' (horderly (.permits 0))
  rw [hslow] at hanswers' hlate
  refine ⟨⟨hquick, hanswers.trans ?_, ?_⟩, hslow, hanswers'.trans ?_, hstopped, ?_⟩
  . decide +kernel
  . rw [hlines, hwarnings]
  . decide +kernel
  . rw [hkept, hlate]
    rfl

end Service

end Metering
