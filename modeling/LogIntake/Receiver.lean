import LogIntake.Batcher
import LogIntake.Delivery
import LogIntake.Pipeline.Lifecycle
import LogIntake.Settings.Basic

/-!
The receiver: a pipeline whose entries are collected into batches, which are handed to a consumer. It
runs once. When it shuts down, the pipeline has some time to stop, and what it left has as much again
to be delivered. Stages that a stop has left behind are followed to the end of the shutdown.
-/
namespace LogIntake

inductive ReceiverError where
  | templates (cause : LoadError)
  | pipeline (cause : BuildError)
  | batching (cause : BatcherError)

def ReceiverError.failure : ReceiverError → Failure
  | templates cause => cause.failure
  | pipeline cause => cause.failure
  | batching cause => (Failure.mk cause.message []).context "invalid converter config"

namespace Receiver

inductive Phase (σ : Type) where
  | created (pipeline : List (Stage σ))
  | running (pipeline : Running σ) (delivery : Delivery)
  | stopped

structure Record where
  /-- The entries that the pipeline accepted. -/
  accepted : List Entry := []
  /-- The entries that left the pipeline, with their times. -/
  left : List (Nat × Entry) := []
  /-- What the operators wrote. -/
  journal : List String := []
  /-- The failures that were reported to the host. -/
  reported : List Failure := []
  deliveries : List DeliveryEvent := []

namespace Record

def append (a b : Record) : Record where
  accepted := a.accepted ++ b.accepted
  left := a.left ++ b.left
  journal := a.journal ++ b.journal
  reported := a.reported ++ b.reported
  deliveries := a.deliveries ++ b.deliveries

end Record

structure Ending (σ : Type) where
  outcome : Except Failure Unit
  /-- The pipeline when the batcher stops. -/
  halted : Running σ
  pipeline : Running σ
  batcher : Batcher
  delivery : Delivery
  /-- When the delivery is given up. -/
  limit : Nat

end Receiver

structure Receiver (σ : Type) where
  now : Nat := 0
  phase : Receiver.Phase σ
  batcher : Batcher
  policy : DeliveryPolicy
  shutdownTimeout : Span
  consumer : Consumer
  record : Receiver.Record := {}

namespace Receiver

variable {σ : Type}

/-- Makes a receiver. The templates are loaded whenever there is a directory of them, used or not. -/
def ofSettings (registry : Registry σ) (load : String → Except LoadError TemplateSet)
    (consumer : Consumer) (s : Settings) : Except ReceiverError (Receiver σ) := do
  let templates ← match s.templateDirectory with
    | some directory => (load directory).mapError ReceiverError.templates
    | none => .ok .empty
  let pipeline ← (buildPipeline registry templates s.pipeline).mapError ReceiverError.pipeline
  let batcher ← (Batcher.ofSettings s.batch).mapError ReceiverError.batching
  .ok
    { phase := .created pipeline
      batcher
      policy := .ofSettings s.delivery
      shutdownTimeout := s.shutdownTimeout
      consumer }

theorem eq_of_ofSettings {registry : Registry σ} {load : String → Except LoadError TemplateSet}
    {consumer : Consumer} {s : Settings} {r : Receiver σ}
    (built : ofSettings registry load consumer s = .ok r) :
    ∃ pipeline batcher, Batcher.ofSettings s.batch = .ok batcher ∧
      r = { phase := .created pipeline, batcher, policy := .ofSettings s.delivery,
            shutdownTimeout := s.shutdownTimeout, consumer } := by
  rw [ofSettings] at built
  split at built
  all_goals
    obtain ⟨templates, -, built⟩ := bind_eq_ok_iff.1 built
    obtain ⟨pipeline, -, built⟩ := bind_eq_ok_iff.1 built
    obtain ⟨batcher, batching, built⟩ := bind_eq_ok_iff.1 built
    exact ⟨pipeline, batcher, mapError_eq_ok_iff.1 batching, (Except.ok.inj built).symm⟩

def isRunning (r : Receiver σ) : Bool :=
  match r.phase with
  | .running _ _ => true
  | _ => false

theorem isRunning_eq_true_iff {r : Receiver σ} :
    r.isRunning = true ↔ ∃ p d, r.phase = .running p d := by
  rw [isRunning]
  cases r.phase with
  | running p d => simp
  | created pipeline => simp
  | stopped => simp

theorem isRunning_eq_false_iff {r : Receiver σ} :
    r.isRunning = false ↔ ∀ p d, r.phase ≠ .running p d := by
  simp only [← Bool.not_eq_true, isRunning_eq_true_iff, not_exists, ne_eq]

/-- Whether a sender of entries can be had. It can as long as the pipeline holds one itself, which it
does until it shuts down, even if it refuses what is sent. -/
def hasSender (r : Receiver σ) : Bool :=
  match r.phase with
  | .running p _ => !p.shuttingDown
  | _ => false

def recording (more : Record) (r : Receiver σ) : Receiver σ := { r with record := r.record.append more }

def send (e : Entry) (r : Receiver σ) : Option Bool × Receiver σ :=
  match r.phase with
  | .running p d =>
    let (accepted, p) := p.send e
    (some accepted, { r with phase := .running p d })
  | _ => (none, r)

theorem send_of_not_running {r : Receiver σ} (idle : r.isRunning = false) (e : Entry) :
    r.send e = (none, r) := by
  rw [send]
  split
  · next p d running => exact absurd running (isRunning_eq_false_iff.1 idle p d)
  · rfl

def alreadyStarted : Failure := ⟨"the receiver has already been started", []⟩

def undelivered (timeout : Span) : Failure :=
  ⟨"the remaining logs could not be delivered within " ++ timeout.decimal, []⟩

/-- Thirty years in milliseconds, the longest wait for a delivery whose end the clock cannot show. -/
def farAway : Nat := 30 * 365 * 86400 * 1000

def patience (now : Nat) (timeout : Span) : Nat :=
  if timeout.endsOnClock now then timeout.ceilMilliseconds else min timeout.ceilMilliseconds farAway

theorem patience_le (now : Nat) (timeout : Span) : patience now timeout ≤ timeout.ceilMilliseconds := by
  rw [patience]
  split
  · exact Nat.le_refl _
  · exact Nat.min_le_left _ _

/-- The batcher and the delivery at the end of a pipeline. What has left the pipeline went through the
batcher, the batcher has stopped, and no more batches come. -/
def remaining (left : List (Nat × Entry)) (now : Nat) (b : Batcher) (d : Delivery) :
    Batcher × Delivery :=
  let (full, b) := b.feed left
  let (due, b) := b.elapse now
  let d := (d.feed (full ++ due.toList)).settle now
  let (last, b) := b.stop
  (b, Delivery.drain { d with queue := d.queue ++ last.toList })

variable [Operator σ]

/-- Starts the receiver, from the side of the consumer to the input. What a pipeline that does not
start has left is delivered before the receiver stops. -/
def start (r : Receiver σ) : Except Failure Unit × Receiver σ :=
  match r.phase with
  | .created pipeline =>
    match r.batcher.start r.now with
    | .error e => (.error ⟨e.message, []⟩, { r with phase := .stopped })
    | .ok batcher =>
      let delivery : Delivery := { policy := r.policy, consumer := r.consumer, now := r.now }
      match Running.start r.now pipeline with
      | .ok p => (.ok (), { r with phase := .running p delivery, batcher })
      | .error f =>
        let (last, batcher) := batcher.stop
        let delivery := (Delivery.drain { delivery with queue := last.toList }).run none
        (.error (f.cause.context "failed to start the pipeline"),
          { r with now := delivery.now, phase := .stopped, batcher }.recording
            { journal := f.journal, deliveries := delivery.events })
  | _ => (.error alreadyStarted, r)

def elapse (limit : Nat) (r : Receiver σ) : Receiver σ :=
  match r.phase with
  | .running p d =>
    let p := p.elapse limit
    let (full, batcher) := r.batcher.feed p.output.left
    let (due, batcher) := batcher.elapse limit
    let d := (d.feed (full ++ due.toList)).elapse limit
    { r with
      now := max r.now limit
      phase := .running { p with output := {}, failures := [], accepted := [] } { d with events := [] }
      batcher }.recording
        { accepted := p.accepted
          left := p.output.left
          journal := p.output.journal
          reported := p.failures
          deliveries := d.events }
  | _ => { r with now := max r.now limit }

theorem elapse_of_not_running {r : Receiver σ} (idle : r.isRunning = false) (limit : Nat) :
    r.elapse limit = { r with now := max r.now limit } := by
  rw [elapse]
  split
  · next p d running => exact absurd running (isRunning_eq_false_iff.1 idle p d)
  · rfl

/-- The end of a pipeline that runs within a receiver, and of its delivery: first the pipeline stops, then the
batcher, then the delivery has as much time again. What stages that were left behind still do by then comes
too late for the batcher. -/
def ending (senderHeld : Bool) (visits : List Visit) (p : Running σ) (d : Delivery) (r : Receiver σ) :
    Ending σ :=
  let (outcome, halted) := p.haltWithin r.shutdownTimeout senderHeld visits
  let (batcher, d) := remaining halted.output.left halted.now r.batcher d
  let limit := halted.now + patience halted.now r.shutdownTimeout
  let delivery := d.run (some limit)
  { outcome
    halted
    pipeline := halted.outlive (if delivery.isOver then delivery.now else limit) senderHeld visits
    batcher
    delivery
    limit }

/-- Whether the clock can show when the pipeline has to have stopped, if the receiver shuts down. -/
def stopsOnClock (r : Receiver σ) : Bool :=
  match r.phase with
  | .running p _ => r.shutdownTimeout.endsOnClock p.now
  | _ => true

def deliversInTime (senderHeld : Bool) (visits : List Visit) (r : Receiver σ) : Bool :=
  match r.phase with
  | .running p d => (r.ending senderHeld visits p d).delivery.isOver
  | _ => true

/-- The receiver after an end, and what the shutdown answers: a failure of the pipeline comes first. -/
def conclude (e : Ending σ) (r : Receiver σ) : Except Failure Unit × Receiver σ :=
  let delivered := if e.delivery.isOver then .ok () else .error (undelivered r.shutdownTimeout)
  (match e.outcome with
    | .ok () => delivered
    | .error cause => .error cause,
   { r with
      now := if e.delivery.isOver then e.delivery.now else e.limit
      phase := .stopped
      batcher := e.batcher }.recording
     { accepted := e.pipeline.accepted
       left := e.pipeline.output.left
       journal := e.pipeline.output.journal
       deliveries := e.delivery.events })

/-- Shuts the receiver down, while others may send entries and hold on to a sender. Whoever reports failures
to the host may still read some that wait before it takes notice of the shutdown. It is then as if these had
been read just before, and nothing is reported here. -/
def shutdown (senderHeld : Bool) (r : Receiver σ) (visits : List Visit := []) :
    Except Failure Unit × Receiver σ :=
  match r.phase with
  | .running p d => r.conclude (r.ending senderHeld visits p d)
  | _ => (.ok (), r)

theorem shutdown_of_running {p : Running σ} {d : Delivery} {r : Receiver σ}
    (running : r.phase = .running p d) (senderHeld : Bool) (visits : List Visit) :
    r.shutdown senderHeld visits = r.conclude (r.ending senderHeld visits p d) := by
  rw [shutdown, running]

theorem shutdown_of_not_running {r : Receiver σ} (idle : r.isRunning = false) (senderHeld : Bool)
    (visits : List Visit) : r.shutdown senderHeld visits = (.ok (), r) := by
  rw [shutdown]
  split
  · next p d running => exact absurd running (isRunning_eq_false_iff.1 idle p d)
  · rfl

theorem deliversInTime_of_running {p : Running σ} {d : Delivery} {r : Receiver σ}
    (running : r.phase = .running p d) (senderHeld : Bool) (visits : List Visit) :
    r.deliversInTime senderHeld visits = (r.ending senderHeld visits p d).delivery.isOver := by
  rw [deliversInTime, running]

section

variable (e : Ending σ) (r : Receiver σ)

omit [Operator σ]

theorem answer_conclude : (r.conclude e).1 =
    match e.outcome with
    | .ok () => if e.delivery.isOver then .ok () else .error (undelivered r.shutdownTimeout)
    | .error cause => .error cause := rfl

@[simp] theorem phase_conclude : (r.conclude e).2.phase = .stopped := rfl

theorem now_conclude :
    (r.conclude e).2.now = if e.delivery.isOver then e.delivery.now else e.limit := rfl

@[simp] theorem accepted_conclude :
    (r.conclude e).2.record.accepted = r.record.accepted ++ e.pipeline.accepted := rfl

@[simp] theorem left_conclude :
    (r.conclude e).2.record.left = r.record.left ++ e.pipeline.output.left := rfl

@[simp] theorem deliveries_conclude :
    (r.conclude e).2.record.deliveries = r.record.deliveries ++ e.delivery.events := rfl

@[simp] theorem reported_conclude : (r.conclude e).2.record.reported = r.record.reported :=
  List.append_nil _

end

end Receiver

end LogIntake
