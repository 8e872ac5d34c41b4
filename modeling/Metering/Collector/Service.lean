import Metering.Collector.Basic

/-!
This module contains the service around the collector: the queue of requests in front of it, and the
order in which it stops.

The service takes requests in the order in which they are sent until it takes a shutdown or until
nobody can send any more. Then it flushes what is left and waits for all deliveries before it
stops. Requests that it has not taken by then are never carried out, and whoever waits for a reply
to one of them learns so when the service has stopped.
-/

namespace Metering

inductive Topic where
  | snapshot
  | flush
  | metric
  deriving DecidableEq

namespace Topic

def name : Topic → String
  | snapshot => "snapshot"
  | flush => "flush"
  | metric => "get_metric"

end Topic

namespace Command

def topic? : Command → Option Topic
  | ingest _ => some .snapshot
  | flush => some .flush
  | get _ => some .metric
  | submit _ => none
  | systemState _ _ => none

end Command

/--
What stands in the queue. An abandoned command is carried out like any other, but its sender does
not wait for the reply.
-/
inductive Request where
  | command (c : Command) (abandoned : Bool)
  | shutdown

namespace Request

def awaited? : Request → Option Topic
  | command c false => c.topic?
  | command _ true => none
  | shutdown => none

end Request

def Command.abandonedLines (c : Command) : List Line :=
  match c.topic? with
  | some t => [⟨.error, "Failed to send " ++ t.name ++ " response - receiver dropped"⟩]
  | none => []

inductive Disconnection where
  | sending (t : Topic)
  | receiving (t : Topic)
  deriving DecidableEq

namespace Disconnection

def closedText : String := "channel closed"

def reason : Disconnection → String
  | sending t => "Failed to send " ++ t.name ++ " command: " ++ closedText
  | receiving t => "Failed to receive " ++ t.name ++ " response: " ++ closedText

def topic : Disconnection → Topic
  | sending t => t
  | receiving t => t

def snapshotMessage (reason : String) : String :=
  "collector channel closed: " ++ reason

def message (d : Disconnection) : String :=
  if d.topic = .snapshot then snapshotMessage d.reason else d.reason

end Disconnection

inductive Answer where
  | reply (r : Reply)
  | sent
  /-- The request could not be sent, and there was nothing to wait for. -/
  | unsent
  | disconnected (d : Disconnection)
  /-- The request was sent, but the service will not take it. -/
  | pending (t : Topic)

namespace Answer

def resolve : Answer → Answer
  | pending t => disconnected (.receiving t)
  | a => a

end Answer

inductive Phase where
  | serving
  | finishing
  | stopped
  deriving DecidableEq

structure Service where
  collector : Collector
  phase : Phase
  unanswered : List Topic

namespace Service

/-!
## Taking requests
-/

structure Served where
  collector : Collector
  answers : List Answer
  shipments : List Shipment
  lines : List Line
  /-- The requests behind a shutdown, if one was taken. -/
  behind : Option (List Request)

def serve (c : Collector) : List Request → Served
  | [] => ⟨c, [], [], [], none⟩
  | .shutdown :: qs =>
    ⟨c, [.sent], [], [⟨.debug, "Metrics collector service shutting down"⟩], some qs⟩
  | .command command abandoned :: qs =>
    let turn := c.handle command
    let answer :=
      if (Request.command command abandoned).awaited?.isSome then .reply turn.reply else .sent
    let rest := serve turn.collector qs
    ⟨rest.collector, answer :: rest.answers, turn.shipments ++ rest.shipments,
      turn.lines ++ (if abandoned then command.abandonedLines else []) ++ rest.lines, rest.behind⟩

def untaken (q : Request) : Answer :=
  match q.awaited? with
  | some t => .pending t
  | none => .sent

def refused (q : Request) : Answer :=
  match q.awaited? with
  | some t => .disconnected (.sending t)
  | none => .unsent

/-!
## Stopping
-/

def close (s : Service) : Service × List Line :=
  match s.phase with
  | .serving =>
    let turn := s.collector.finalFlush
    ({ s with collector := turn.collector, phase := .finishing }, turn.lines)
  | _ => (s, [])

def advance (s : Service) : Service × List Line :=
  let (outbox, lines) := s.collector.outbox.settle
  let s := { s with collector := { s.collector with outbox := outbox } }
  if s.phase = .finishing ∧ outbox.idle then
    ({ s with phase := .stopped }, lines ++ [⟨.debug, "Metrics collector service stopped"⟩])
  else
    (s, lines)

/--
Answers as they are once everything possible is done. What is still pending is remembered.
-/
def settleAnswers (s : Service) (answers : List Answer) : Service × List Answer :=
  if s.phase = .stopped then
    (s, answers.map Answer.resolve)
  else
    ({ s with unanswered := s.unanswered ++ answers.filterMap fun a =>
      match a with
      | .pending t => some t
      | _ => none }, answers)

/-!
## The service as it is seen from outside
-/

def start (config : Config) (registry : Registry) (stations : List Station) :
    Except ConfigError (Service × List Line) := do
  config.validate
  let line := ⟨.debug, "Metrics collector service started with " ++ Decimal.text stations.length
    ++ " sinks and flush threshold " ++ Decimal.text config.threshold.toNat⟩
  return (⟨⟨config.threshold, registry, .ofStations stations⟩, .serving, []⟩, [line])

/--
Send requests, all of them before the service takes the first one, and wait until nothing can go on.
-/
def post (s : Service) (qs : List Request) : Service × List Answer × List Line :=
  match s.phase with
  | .stopped => (s, qs.map refused, [])
  | .finishing =>
    let (s, lines) := s.advance
    let (s, answers) := s.settleAnswers (qs.map untaken)
    (s, answers, lines)
  | .serving =>
    let served := serve s.collector qs
    let s := { s with collector := served.collector }
    match served.behind with
    | none =>
      let (s, lines) := s.advance
      (s, served.answers, served.lines ++ lines)
    | some behind =>
      let (s, closing) := s.close
      let (s, lines) := s.advance
      let (s, answers) := s.settleAnswers (served.answers ++ behind.map untaken)
      (s, answers, served.lines ++ closing ++ lines)

def hangUp (s : Service) : Service × List Line :=
  let (s, closing) := s.close
  let (s, lines) := s.advance
  (s, closing ++ lines)

def release (s : Service) (p count : Nat) : Service × List Line :=
  let outbox := s.collector.outbox.addPermits p count
  advance { s with collector := { s.collector with outbox := outbox } }

def finish (s : Service) : Service × List Line :=
  hangUp { s with collector := { s.collector with outbox := s.collector.outbox.openGates } }

def lateAnswers (s : Service) : List Answer :=
  s.unanswered.map fun t => .disconnected (.receiving t)

end Service

end Metering
