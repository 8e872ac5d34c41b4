import Metering.Proofs.Collector.Session

/-!
This module contains that snapshots which are refused, lookups and state reports leave nothing
behind that any other command could notice. Two collectors that differ in their deliveries only give the
same replies and send the same batches, and none of these commands makes any other difference.
-/

namespace Metering.Collector

/--
Whether two collectors differ in their deliveries only.
-/
structure Alike (c d : Collector) : Prop where
  threshold : c.threshold = d.threshold
  registry : c.registry = d.registry
  sinks : c.sinks = d.sinks

variable {c d : Collector}

theorem Alike.refl (c : Collector) : c.Alike c :=
  ⟨rfl, rfl, rfl⟩

theorem Alike.trans {e : Collector} (h : c.Alike d) (h' : d.Alike e) : c.Alike e :=
  ⟨h.threshold.trans h'.threshold, h.registry.trans h'.registry, h.sinks.trans h'.sinks⟩

theorem Alike.withRegistry (h : c.Alike d) (r : Registry) :
    Alike { c with registry := r } { d with registry := r } :=
  ⟨h.threshold, rfl, h.sinks⟩

theorem Alike.accessAll (h : c.Alike d) (as : List Access) :
    (c.accessAll as).Alike (d.accessAll as) := by
  unfold Collector.accessAll
  rw [h.registry]
  apply h.withRegistry

theorem alike_ship (c : Collector) (cause : Cause) (b : Batch) : (c.ship cause b).1.Alike c := by
  unfold ship
  split <;> exact ⟨rfl, rfl, rfl⟩

theorem Alike.ship (h : c.Alike d) (cause : Cause) (b : Batch) :
    (c.ship cause b).2 = (d.ship cause b).2 := by
  unfold Collector.ship
  rw [h.sinks]
  split <;> rfl

theorem Alike.symm (h : c.Alike d) : d.Alike c :=
  ⟨h.threshold.symm, h.registry.symm, h.sinks.symm⟩

theorem Alike.ship_alike (h : c.Alike d) (cause : Cause) (b : Batch) :
    (c.ship cause b).1.Alike (d.ship cause b).1 :=
  ((alike_ship c cause b).trans h).trans (alike_ship d cause b).symm

theorem Alike.flush (h : c.Alike d) :
    c.flush.1 = d.flush.1 ∧ c.flush.2.1.Alike d.flush.2.1 ∧ c.flush.2.2 = d.flush.2.2 := by
  have hreset := h.withRegistry d.registry.reset
  have hship := hreset.ship .flush d.registry.pairs
  unfold Collector.flush Registry.drain
  rw [h.registry, h.sinks]
  refine ⟨rfl, hreset.ship_alike .flush d.registry.pairs, ?_⟩
  exact congrArg (fun rest : List Shipment × List Line => (rest.1, _ :: rest.2)) hship

theorem Alike.accept (h : c.Alike d) (payload : Bytes) :
    (c.accept payload).1 = (d.accept payload).1
      ∧ (c.accept payload).2.1.Alike (d.accept payload).2.1
      ∧ (c.accept payload).2.2 = (d.accept payload).2.2 := by
  unfold Collector.accept
  rw [h.registry]
  cases Registry.deserialize payload with
  | error e => exact ⟨rfl, h, rfl⟩
  | ok incoming =>
    dsimp only
    cases (d.registry.absorb incoming).1 with
    | mk r result =>
      cases result with
      | error e => exact ⟨rfl, h.withRegistry r, rfl⟩
      | ok n => exact ⟨rfl, h.withRegistry r, rfl⟩

theorem Alike.overdue (h : c.Alike d) : c.overdue = d.overdue := by
  unfold Collector.overdue
  rw [h.threshold, h.registry]

theorem Alike.ingestAmid (h : c.Alike d) (payload : Bytes) (merged overdue : List Access) :
    (c.ingestAmid payload merged overdue).1 = (d.ingestAmid payload merged overdue).1
      ∧ (c.ingestAmid payload merged overdue).2.1.Alike (d.ingestAmid payload merged overdue).2.1
      ∧ (c.ingestAmid payload merged overdue).2.2 = (d.ingestAmid payload merged overdue).2.2 := by
  obtain ⟨hresult, halike, hlines⟩ := h.accept payload
  unfold Collector.ingestAmid
  cases hc : c.accept payload with
  | mk result rest =>
    cases hd : d.accept payload with
    | mk result' rest' =>
      rw [hc, hd] at hresult halike hlines
      dsimp only at hresult halike hlines
      subst hresult
      cases result with
      | error e => exact ⟨rfl, halike.accessAll _, by simp only [hlines]⟩
      | ok n =>
        have hmerged := halike.accessAll merged
        dsimp only
        rw [hmerged.overdue]
        split
        . obtain ⟨-, hflush, hrest⟩ := (hmerged.accessAll overdue).flush
          exact ⟨rfl, hflush, by simp only [hlines, hrest]⟩
        . exact ⟨rfl, hmerged.accessAll overdue, by simp only [hlines]⟩

/--
Whether two turns differ in the deliveries of the collector only.
-/
structure SameTurn (t u : Turn) : Prop where
  collector : t.collector.Alike u.collector
  reply : t.reply = u.reply
  shipments : t.shipments = u.shipments
  lines : t.lines = u.lines

theorem Alike.handleAmid (h : c.Alike d) (command : Command) (merged overdue : List Access) :
    SameTurn (c.handleAmid command merged overdue) (d.handleAmid command merged overdue) := by
  cases command with
  | ingest payload =>
    obtain ⟨hresult, halike, hrest⟩ := h.ingestAmid payload merged overdue
    refine ⟨halike, ?_, ?_, ?_⟩ <;>
    . simp only [Collector.handleAmid, hresult, hrest]
  | submit payload =>
    obtain ⟨hresult, halike, hrest⟩ := h.ingestAmid payload merged overdue
    refine ⟨halike, rfl, ?_, ?_⟩ <;>
    . simp only [Collector.handleAmid, hresult, hrest]
  | flush =>
    obtain ⟨hcount, halike, hrest⟩ := h.flush
    refine ⟨halike.accessAll _, ?_, ?_, ?_⟩ <;>
    . simp only [Collector.handleAmid, handle, hcount, hrest]
  | systemState state updated =>
    have hship := h.ship .systemState [(stateKey, state), (timeKey, Integer.text updated)]
    refine ⟨(h.ship_alike .systemState _).accessAll _, rfl, ?_, ?_⟩ <;>
    . simp only [Collector.handleAmid, handle, hship]
  | get name =>
    refine ⟨h.accessAll _, ?_, rfl, rfl⟩
    simp only [Collector.handleAmid, handle, h.registry]

theorem Alike.proceed (h : c.Alike d) (deed : Deed) :
    SameTurn (c.proceed deed) (d.proceed deed) := by
  cases deed with
  | access a => exact ⟨h.accessAll [a], rfl, rfl, rfl⟩
  | command command merged overdue => apply h.handleAmid command merged overdue

/-!
## Commands that leave nothing behind
-/

/--
Whether a command is a snapshot that is refused, a lookup or a state report.
-/
def Silent (c : Collector) : Command → Prop
  | .ingest payload => ∃ e, (c.accept payload).1 = .error e
  | .submit payload => ∃ e, (c.accept payload).1 = .error e
  | .get _ => True
  | .systemState _ _ => True
  | .flush => False

theorem ingest_of_refused (h : c.registry.Sound) {payload : Bytes} {e : IngestError}
    (he : (c.accept payload).1 = .error e) :
    ∃ lines, c.ingest payload = (.error e, c, [], lines) := by
  cases c.accept_cases h payload with
  | inl hrefused =>
    obtain ⟨e', lines, haccept⟩ := hrefused
    rw [haccept] at he
    cases he
    unfold ingest
    rw [haccept]
    exact ⟨lines, rfl⟩
  | inr haccepted =>
    obtain ⟨ts, n, r, lines, -, -, -, haccept⟩ := haccepted
    rw [haccept] at he
    cases he

theorem Silent.handle {command : Command} (hsilent : c.Silent command) (h : c.registry.Sound) :
    (c.handle command).collector.Alike c
      ∧ (c.handle command).shipments.filter (·.cause = .flush) = [] := by
  cases command with
  | ingest payload =>
    obtain ⟨e, he⟩ := hsilent
    obtain ⟨lines, hingest⟩ := ingest_of_refused h he
    simp only [Collector.handle, hingest]
    exact ⟨.refl c, rfl⟩
  | submit payload =>
    obtain ⟨e, he⟩ := hsilent
    obtain ⟨lines, hingest⟩ := ingest_of_refused h he
    simp only [Collector.handle, hingest]
    exact ⟨.refl c, rfl⟩
  | get name => exact ⟨.refl c, rfl⟩
  | systemState state updated =>
    refine ⟨alike_ship c _ _, ?_⟩
    simp only [Collector.handle, ship]
    split <;> rfl
  | flush => cases hsilent

/-!
## Leaving commands out
-/

/--
What is left of a list of things of which some are marked.
-/
def kept {α : Type} (xs : List (α × Bool)) : List α :=
  (xs.filter fun x => !x.2).map Prod.fst

/--
What is seen of a turn.
-/
def seen (t : Turn) : Reply × Registry × List Shipment × List Line :=
  (t.reply, t.collector.registry, t.shipments, t.lines)

/--
Whether only commands that leave nothing behind are marked. Each of them is judged by the collector
that it comes to.
-/
def MarksSilent (c : Collector) : List (Deed × Bool) → Prop
  | [] => True
  | (d, mark) :: ds =>
    (mark → ∃ command, d = .command command [] [] ∧ c.Silent command)
      ∧ (c.proceed d).collector.MarksSilent ds

theorem SameTurn.seen_eq {t u : Turn} (h : SameTurn t u) : seen t = seen u := by
  unfold seen
  rw [h.reply, h.collector.registry, h.shipments, h.lines]

theorem sent_cons (c : Collector) (deed : Deed) (ds : List Deed) :
    c.sent (deed :: ds) = (c.proceed deed).shipments ++ (c.proceed deed).collector.sent ds := by
  unfold sent
  rw [turns, List.flatMap_cons]

theorem sent_append (c : Collector) (ds es : List Deed) :
    c.sent (ds ++ es) = c.sent ds ++ (c.after ds).sent es := by
  induction ds generalizing c with
  | nil => rfl
  | cons d ds ih =>
    rw [List.cons_append, sent_cons, sent_cons, ih, List.append_assoc]
    rfl

theorem Alike.kept (h : c.Alike d) (hsound : c.registry.Sound) {ds : List (Deed × Bool)}
    (hsilent : c.MarksSilent ds) :
    (kept ((c.turns (ds.map Prod.fst)).zip (ds.map Prod.snd))).map seen
        = (d.turns (kept ds)).map seen
      ∧ (c.after (ds.map Prod.fst)).Alike (d.after (kept ds))
      ∧ (c.sent (ds.map Prod.fst)).filter (·.cause = .flush)
        = (d.sent (kept ds)).filter (·.cause = .flush) := by
  induction ds generalizing c d with
  | nil => exact ⟨rfl, h, rfl⟩
  | cons x ds ih =>
    obtain ⟨deed, mark⟩ := x
    obtain ⟨hmark, hsilent⟩ := hsilent
    have hrest := lasting_sound.proceed hsound deed
    cases mark with
    | false =>
      have hsame := h.proceed deed
      obtain ⟨hseen, hafter, hsent⟩ := ih hsame.collector hrest hsilent
      refine ⟨congrArg₂ List.cons hsame.seen_eq hseen, hafter, ?_⟩
      rw [List.map_cons, sent_cons, List.filter_append, hsent, hsame.shipments,
        ← List.filter_append, ← sent_cons]
      rfl
    | true =>
      obtain ⟨command, rfl, hcommand⟩ := hmark rfl
      have hquiet := hcommand.handle hsound
      rw [← handleAmid_nil] at hquiet
      obtain ⟨hseen, hafter, hsent⟩ := ih (hquiet.1.trans h) hrest hsilent
      refine ⟨hseen, hafter, ?_⟩
      rw [List.map_cons, sent_cons, List.filter_append]
      exact congrArg₂ (· ++ ·) hquiet.2 hsent

theorem Alike.sent (h : c.Alike d) (ds : List Deed) : c.sent ds = d.sent ds := by
  induction ds generalizing c d with
  | nil => rfl
  | cons deed ds ih =>
    have hsame := h.proceed deed
    rw [sent_cons, sent_cons, hsame.shipments, ih hsame.collector]

theorem Alike.finalFlush (h : c.Alike d) : seen c.finalFlush = seen d.finalFlush := by
  have hpending : c.pending = d.pending := by
    unfold pending
    rw [h.registry]
  obtain ⟨-, hcollector, hrest⟩ := h.flush
  unfold Collector.finalFlush seen
  rw [hpending]
  split
  . simp only [hcollector.registry, hrest]
  . simp only [h.registry]

/--
If snapshots that are refused, lookups and state reports are left out, then every other command
gives the same reply, leaves the same registry, sends the same batches and logs the same lines, and
in the end the registry and the last flush are the same as well. A snapshot that is refused sends
nothing, however many changes there are, and a state report sends its own batch between what comes
before and after it.
-/
theorem silent_commands_unnoticed {c : Collector} (hregistry : c.registry.Reachable)
    {ds : List (Deed × Bool)} (hsilent : c.MarksSilent ds) :
    let all := ds.map Prod.fst
    (kept ((c.turns all).zip (ds.map Prod.snd))).map seen = (c.turns (kept ds)).map seen
      ∧ (c.after all).registry = (c.after (kept ds)).registry
      ∧ (c.sent all).filter (·.cause = .flush) = (c.sent (kept ds)).filter (·.cause = .flush)
      ∧ seen (c.after all).finalFlush = seen (c.after (kept ds)).finalFlush
      ∧ (∀ before payload e, ((c.after before).accept payload).1 = .error e →
        ∀ command, command = .ingest payload ∨ command = .submit payload →
          ((c.after before).handle command).collector = c.after before
            ∧ ((c.after before).handle command).shipments = [])
      ∧ ∀ before state updated rest,
        c.sent (before ++ .command (.systemState state updated) [] [] :: rest)
            = c.sent before
              ++ (if c.sinks = 0 then []
                else [⟨.systemState, [("SystemState", state), ("TimeUpdated", Integer.text updated)]⟩])
              ++ (c.after before).sent rest
          ∧ c.sent (before ++ rest) = c.sent before ++ (c.after before).sent rest := by
  intro all
  have hsound := hregistry.sound
  obtain ⟨hseen, halike, hflushed⟩ := (Alike.refl c).kept hsound hsilent
  refine ⟨hseen, halike.registry, hflushed, halike.finalFlush, ?_, ?_⟩
  . intro before payload e he command hcommand
    obtain ⟨lines, hingest⟩ := ingest_of_refused (lasting_sound.after hsound before) he
    cases hcommand with
    | inl hcommand =>
      subst hcommand
      simp only [handle, hingest, and_self]
    | inr hcommand =>
      subst hcommand
      simp only [handle, hingest, and_self]
  . intro before state updated rest
    refine ⟨?_, c.sent_append before rest⟩
    have hreport := alike_ship (c.after before) .systemState
      [(stateKey, state), (timeKey, Integer.text updated)]
    rw [sent_append, sent_cons, ← hreport.sent rest, ← (lasting_sinks c.sinks).after rfl before,
      List.append_assoc]
    congr 2
    apply shipments_ship

/--
A snapshot with another kind of metric than the registry, a state report and a lookup, although the
threshold is exceeded already, and then a snapshot that fits.
-/
theorem silent_commands_unnoticed_queue :
    let as : List Action := [.create 0, .register 0 (.create 0 .integerGauge "queue" "")]
    let c : Collector := ⟨1, (World.run as 0).getD .empty, .ofStations [.ofSink .log .wide]⟩
    let refused := Snapshot.encode [⟨⟨"queue", "", .counter 7, 3⟩, 1, []⟩]
    let fitting := Snapshot.encode [⟨⟨"queue", "", .integerGauge 7, 3⟩, 1, [⟨.integer 6, 2⟩]⟩]
    let ds : List (Deed × Bool) :=
      [(.access (.update 1 "queue" (.value (.integer 5))), false),
        (.access (.update 2 "queue" (.value (.integer 6))), false),
        (.command (.ingest refused) [] [], true),
        (.command (.systemState "Running" 3) [] [], true),
        (.command (.get "queue") [] [], true),
        (.command (.submit fitting) [] [], false)]
    (c.after ((ds.map Prod.fst).take 2)).overdue
      ∧ ((c.after ((ds.map Prod.fst).take 2)).handle (.ingest refused)).shipments = []
      ∧ ((c.sent (ds.map Prod.fst)).map Shipment.cause) = [.systemState, .flush]
      ∧ (c.sent (ds.map Prod.fst)).filter (·.cause = .flush) = c.sent (kept ds)
      ∧ (c.after (ds.map Prod.fst)).registry = (c.after (kept ds)).registry := by
  intro as c refused fitting ds
  have hregistry : World.run as 0 = some ((World.run as 0).getD .empty) := by
    rw [← Option.get_eq_getD (h := by decide), Option.some_get]
  have hrefused : ((c.after ((ds.map Prod.fst).take 2)).accept refused).1.isOk = false := by
    decide +kernel
  obtain ⟨e, he⟩ : ∃ e, ((c.after ((ds.map Prod.fst).take 2)).accept refused).1 = .error e := by
    cases hresult : ((c.after ((ds.map Prod.fst).take 2)).accept refused).1 with
    | error e => exact ⟨e, rfl⟩
    | ok n =>
      rw [hresult] at hrefused
      cases hrefused
  have hsilent : c.MarksSilent ds := by
    refine ⟨nofun, nofun, fun _ => ⟨_, rfl, e, he⟩, fun _ => ⟨_, rfl, trivial⟩,
      fun _ => ⟨_, rfl, trivial⟩, nofun, trivial⟩
  have hcauses : (c.sent (ds.map Prod.fst)).map Shipment.cause = [.systemState, .flush] := by
    decide +kernel
  have hkept : (c.sent (kept ds)).all (·.cause = .flush) := by decide +kernel
  obtain ⟨-, hend, hflushed, -, hnone, -⟩ :=
    silent_commands_unnoticed (c := c) ⟨as, 0, hregistry⟩ hsilent
  refine ⟨by decide +kernel, (hnone _ refused e he _ (.inl rfl)).2, hcauses, ?_, hend⟩
  rw [hflushed, List.filter_eq_self]
  exact List.all_eq_true.1 hkept

end Metering.Collector
