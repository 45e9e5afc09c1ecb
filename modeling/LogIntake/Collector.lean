import LogIntake.Batcher
import LogIntake.Failure

/-!
A batcher with the callback that is given its batches. It answers one request after another and keeps
the books: which entries came in and how entries left. A batch that the callback fails on is gone.
-/
namespace LogIntake

/-- What a callback says to a batch, by the number of the call. -/
abbrev Callback := Nat → Batch → Except Failure Unit

namespace Collector

inductive Request where
  /-- Without a clock there is no timer, and the start is refused. -/
  | start (clock : Option Nat)
  | add (now : Nat) (e : Entry)
  | flush (now : Nat)
  | take
  /-- Time passes, and the timer is served at each of its deadlines before the limit. -/
  | wait (limit : Nat)
  | stop (now : Nat)

inductive Answer where
  | done
  | refused (cause : BatcherError)
  /-- How many entries went to the callback. -/
  | flushed (count : Nat)
  | taken (batch : Batch)

/-- How entries left the buffer. -/
inductive Departure where
  /-- To the callback, at a time and in the course of a request. -/
  | given (now : Nat) (on : Request) (batch : Batch) (outcome : Except Failure Unit)
  | taken (batch : Batch)

namespace Departure

def batch : Departure → Batch
  | given _ _ batch _ => batch
  | taken batch => batch

def isGiven : Departure → Bool
  | given .. => true
  | taken _ => false

end Departure

end Collector

structure Collector where
  batcher : Batcher
  /-- The entries that were accepted. -/
  accepted : List Entry := []
  departures : List Collector.Departure := []
  /-- How often the callback was called. -/
  calls : Nat := 0

namespace Collector

def given (c : Collector) : List Departure := c.departures.filter Departure.isGiven

def give (callback : Callback) (on : Request) : Option (Nat × Batch) → Collector → Collector
  | none, c => c
  | some (now, batch), c =>
    { c with
      calls := c.calls + 1
      departures := c.departures ++ [.given now on batch (callback c.calls batch)] }

def serve (callback : Callback) (request : Request) (c : Collector) : Answer × Collector :=
  match request with
  | .start none => (.refused .noClock, c)
  | .start (some now) =>
    match c.batcher.start now with
    | .ok batcher => (.done, { c with batcher })
    | .error cause => (.refused cause, c)
  | .add now e =>
    match c.batcher.add now e with
    | .ok (full, batcher) =>
      (.done, { c with batcher, accepted := c.accepted ++ [e] }.give callback request (full.map (now, ·)))
    | .error cause => (.refused cause, c)
  | .flush now =>
    let (batch, batcher) := c.batcher.flush now
    (.flushed (batch.getD []).length,
      { c with batcher }.give callback request (batch.map (now, ·)))
  | .take =>
    let (batch, batcher) := c.batcher.take
    (.taken batch, { c with batcher, departures := c.departures ++ [.taken batch] })
  | .wait limit =>
    let (due, batcher) := c.batcher.elapse limit
    (.done, { c with batcher }.give callback request due)
  | .stop now =>
    let (last, batcher) := c.batcher.stop
    (.done, { c with batcher }.give callback request (last.map (now, ·)))

def run (callback : Callback) : List Request → Collector → Collector
  | [], c => c
  | request :: rest, c => run callback rest (c.serve callback request).2

end Collector

end LogIntake
