import Metering.Sink

/-!
This module contains one dispatch in detail: a job for each place in the list of sinks, and a loop
that awaits the jobs.

A job holds the lease of its sink, and the sink is closed when the lease is dropped. That happens
as the job is left, whether the sink has taken the batch, has failed, or has panicked. In the last
case the job is unwound, and it is the loop that logs the panic. The jobs take their steps in any
order. One may have come far before another is spawned, which is then as one that has not started.
-/

namespace Metering

namespace Job

inductive Event where
  | handed (b : Batch)
  /-- The delivery has ended. -/
  | returned (outcome : Outcome)
  | closed
  /-- A line of the sink itself. -/
  | own (l : Line)
  | logged (l : Line)
  deriving DecidableEq

end Job

/--
How far a job has come. One that is unwound keeps the panic.
-/
inductive Job where
  | spawned
  | delivering
  | returned (outcome : Outcome)
  | leaving (panic : Option Panic)
  | closed (panic : Option Panic)
  /-- The job has ended, and the loop has not taken note of it yet. -/
  | ended (panic : Option Panic)
  | joined
  deriving DecidableEq

namespace Job

/--
The next step of the job for a sink, with what happens in it.
-/
def advance? (s : Sink) (b : Batch) : Job → Option (Job × List Event)
  | spawned => some (delivering, .handed b :: (s.ownLines b).map .own)
  | delivering => some (returned s.outcome, [.returned s.outcome])
  | returned (.panicked panic) => some (leaving (some panic), [])
  | returned outcome => some (leaving none, [.logged (s.outcomeLine b outcome)])
  | leaving panic => some (closed panic, [.closed])
  | closed panic => some (ended panic, [.logged s.releaseLine])
  | ended _ => none
  | joined => none

/--
The loop takes note of a job that has ended, and logs the panic if there was one.
-/
def join? (s : Sink) (b : Batch) : Job → Option (Job × List Event)
  | ended none => some (joined, [])
  | ended (some panic) => some (joined, [.logged (s.outcomeLine b (.panicked panic))])
  | _ => none

end Job

structure Jobs where
  batch : Batch
  places : List (Sink × Job)
  /-- What has happened, each with the place where it did. -/
  log : List (Nat × Job.Event)
  complete : Bool

namespace Jobs

inductive Move where
  | advance (p : Nat)
  | join (p : Nat)
  | complete

def start (sinks : List Sink) (b : Batch) : Jobs :=
  ⟨b, sinks.map (·, .spawned), [], false⟩

def progress? (js : Jobs) (p : Nat)
    (next? : Sink → Batch → Job → Option (Job × List Job.Event)) : Option Jobs :=
  match js.places[p]? with
  | none => none
  | some (s, j) =>
    (next? s js.batch j).map fun (j, es) =>
      { js with places := js.places.set p (s, j), log := js.log ++ es.map (p, ·) }

/--
The loop is done once it finds no job any more that it has not taken note of.
-/
def step? (js : Jobs) : Move → Option Jobs
  | .advance p => js.progress? p Job.advance?
  | .join p => js.progress? p Job.join?
  | .complete =>
    if js.complete || js.places.any (·.2 ≠ .joined) then none else some { js with complete := true }

def run? (js : Jobs) : List Move → Option Jobs
  | [] => some js
  | m :: ms => (js.step? m).bind (run? · ms)

end Jobs

end Metering
