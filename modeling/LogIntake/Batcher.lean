import LogIntake.Entry
import LogIntake.Settings.Basic

/-!
Collecting entries into batches. A batch is cut when the buffer is full, on demand, when nothing was
cut for a while, and for the last time when the batcher stops. Times are whole milliseconds.
-/
namespace LogIntake

/-- When a batch is cut: at a count of entries, and after a pause. -/
structure BatchLimits where
  count : Nat
  /-- In milliseconds. -/
  interval : Nat
  count_pos : 0 < count
  interval_pos : 0 < interval

inductive BatcherError where
  | zeroCount
  | zeroInterval
  /-- There is no clock that could drive the timer. -/
  | noClock
  | alreadyStarted
  | notRunning
deriving DecidableEq, Repr

def BatcherError.message : BatcherError → String
  | zeroCount => "max_flush_count must be greater than zero"
  | zeroInterval => "flush_interval must be greater than zero"
  | noClock => "the converter must be started within a tokio runtime"
  | alreadyStarted => "the converter has already been started"
  | notRunning => "the converter is not running"

def BatchLimits.ofSettings (s : BatchSettings) : Except BatcherError BatchLimits :=
  if hc : s.maxFlushCount = 0 then .error .zeroCount
  else if hi : s.flushInterval.nanoseconds = 0 then .error .zeroInterval
  else
    .ok ⟨s.maxFlushCount, s.flushInterval.ceilMilliseconds, by omega,
      by unfold Span.ceilMilliseconds; omega⟩

namespace Batcher

/-- A batcher runs once. -/
inductive Phase where
  | created
  /-- The timer is due at the deadline. -/
  | running (deadline : Nat)
  | stopped
deriving DecidableEq, Repr

end Batcher

structure Batcher where
  limits : BatchLimits
  phase : Batcher.Phase := .created
  buffer : Batch := []

namespace Batcher

def ofSettings (s : BatchSettings) : Except BatcherError Batcher :=
  (BatchLimits.ofSettings s).map fun limits => { limits }

def nextDeadline (b : Batcher) (now : Nat) : Nat := now + b.limits.interval

def start (now : Nat) (b : Batcher) : Except BatcherError Batcher :=
  match b.phase with
  | .created => .ok { b with phase := .running (b.nextDeadline now) }
  | _ => .error .alreadyStarted

def cut (b : Batcher) : Option Batch × Batcher :=
  if b.buffer.isEmpty then (none, b) else (some b.buffer, { b with buffer := [] })

/-- Adds an entry. It may fill a batch, and then the timer starts again. -/
def add (now : Nat) (e : Entry) (b : Batcher) : Except BatcherError (Option Batch × Batcher) :=
  match b.phase with
  | .running deadline =>
    let buffer := b.buffer ++ [e]
    if b.limits.count ≤ buffer.length then
      .ok (some buffer, { b with buffer := [], phase := .running (b.nextDeadline now) })
    else .ok (none, { b with buffer, phase := .running deadline })
  | _ => .error .notRunning

/-- Takes the entries away; they are no batch. -/
def take (b : Batcher) : Batch × Batcher := (b.buffer, { b with buffer := [] })

def flush (now : Nat) (b : Batcher) : Option Batch × Batcher :=
  match b.phase with
  | .running _ =>
    match b.cut with
    | (some batch, b) => (some batch, { b with phase := .running (b.nextDeadline now) })
    | (none, b) => (none, b)
  | _ => (none, b)

def tick (b : Batcher) : Option Batch × Batcher :=
  match b.phase with
  | .running deadline =>
    let (batch, b) := b.cut
    (batch, { b with phase := .running (b.nextDeadline deadline) })
  | _ => (none, b)

def stop (b : Batcher) : Option Batch × Batcher :=
  match b.phase with
  | .running _ =>
    let (batch, b) := b.cut
    (batch, { b with phase := .stopped })
  | _ => (none, { b with phase := .stopped })

/-- The first deadline at or after `limit` of a timer that was due at `deadline` before it. -/
def deadlineAfter (b : Batcher) (limit deadline : Nat) : Nat :=
  deadline + (limit - deadline + b.limits.interval - 1) / b.limits.interval * b.limits.interval

/-- Serves the timer at all deadlines before `limit`. Only the first time can there be a batch, as
nothing is added in between. -/
def elapse (limit : Nat) (b : Batcher) : Option (Nat × Batch) × Batcher :=
  match b.phase with
  | .running deadline =>
    if deadline < limit then
      let (batch, b) := b.cut
      (batch.map fun batch => (deadline, batch),
        { b with phase := .running (b.deadlineAfter limit deadline) })
    else (none, b)
  | _ => (none, b)

/-- Adds entries at their times and gives the batches with theirs. An entry that comes when the
batcher does not run is lost. -/
def feed : List (Nat × Entry) → Batcher → List (Nat × Batch) × Batcher
  | [], b => ([], b)
  | (now, e) :: rest, b =>
    let (ticked, b) := b.elapse now
    match b.add now e with
    | .error _ =>
      let (batches, b) := feed rest b
      (ticked.toList ++ batches, b)
    | .ok (batch, b) =>
      let (batches, b) := feed rest b
      (ticked.toList ++ (batch.toList.map fun batch => (now, batch)) ++ batches, b)

/-! ### What each operation does to the buffer -/

@[simp] theorem cut_buffer (b : Batcher) : b.cut.2.buffer = [] := by
  unfold cut
  split
  · next h => simpa using h
  · rfl

@[simp] theorem cut_batch (b : Batcher) : b.cut.1.getD [] = b.buffer := by
  rw [cut]
  split
  · next h => simpa using (List.isEmpty_iff.1 h).symm
  · rfl

@[simp] theorem cut_limits (b : Batcher) : b.cut.2.limits = b.limits := by
  rw [cut]
  split <;> rfl

@[simp] theorem cut_phase (b : Batcher) : b.cut.2.phase = b.phase := by
  rw [cut]
  split <;> rfl

end Batcher

end LogIntake
