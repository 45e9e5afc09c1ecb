import LogIntake.Proofs.Batching.Cut
import LogIntake.Proofs.Delivery.Timing
import LogIntake.Proofs.Pipeline.Timing
import LogIntake.Receiver

/-!
What the host of a receiver can do with it. It starts the receiver, shuts it down and asks about it in any
order and as often as it likes; meanwhile entries are sent, the pipeline works and time passes. A start
that fails rolls the pipeline back, and tasks may be at work before it does.
-/
namespace LogIntake

namespace Running

variable {σ : Type} [Operator σ]

/-- A stop without any time only stops the input and the stages, if nothing waits for them. -/
theorem halt_zero {r : Running σ} (empty : r.channel = some []) :
    (r.halt 0 false []).2 =
      { r with
        input := r.stopInput.2.input
        stages := (Chain.stopAll r.stages).stages
        channel := none
        jobs := []
        shuttingDown := true
        output :=
          { left := r.output.left
            journal := r.stopInput.2.output.journal ++ (Chain.stopAll r.stages).journal } } := by
  have told : r.stopInput.2.shutDown.now = r.now := now_stopInput r
  have idle : r.stopInput.2.shutDown.host r.now [] = r.stopInput.2.shutDown :=
    run_of_le (Nat.le_of_eq told.symm)
  have clock : r.stopInput.2.shutDown.overAt r.now false = r.now := by
    refine Nat.le_antisymm (overAt_le false (Nat.le_of_eq told)) ?_
    exact Nat.le_trans (Nat.le_of_eq told.symm) (le_overAt r.now false _)
  simp only [halt, Nat.add_zero, idle, clock]
  simp [drain, shutDown, empty, digest, close, Chain.passAll]

/-- Where no task comes to its turn, the pipeline that is rolled back is the one that did not start. -/
theorem FailsToStart.start_eq {now : Nat} {pipeline : List (Stage σ)} {cause : Failure} {p : Running σ}
    (h : FailsToStart now pipeline cause p) :
    start now pipeline = .error ⟨cause, (p.halt 0 false []).2.output.journal⟩ ∧
      (p.halt 0 false []).2.now = now ∧ (p.halt 0 false []).2.output.left = [] ∧
      (p.halt 0 false []).2.accepted = [] := by
  cases h with
  | @input s stages cause isInput behind failed =>
    rw [halt_zero rfl]
    refine ⟨?_, rfl, rfl, rfl⟩
    simp [start, split, isInput, behind, failed, stopInput]

theorem now_of_start {now : Nat} {pipeline : List (Stage σ)} {p : Running σ}
    (opened : start now pipeline = .ok p) : p.now = now := by
  obtain ⟨-, ⟨-, rfl⟩ | ⟨s, -, -, rfl⟩⟩ := start_eq_ok opened
  · rfl
  · rfl

end Running

namespace Receiver

variable {σ : Type}

/-! ### The end of a delivery -/

def newDelivery (r : Receiver σ) : Delivery :=
  { policy := r.policy, consumer := r.consumer, now := r.now }

/-- The delivery of what a pipeline has left that was rolled back. It takes its time. -/
def lastDelivery (p : Running σ) (b : Batcher) (r : Receiver σ) : Delivery :=
  (remaining p.output.left p.now b r.newDelivery).2.run none

def rolledBack (p : Running σ) (b : Batcher) (r : Receiver σ) : Receiver σ :=
  { r with
    now := (r.lastDelivery p b).now
    phase := .stopped
    batcher := (remaining p.output.left p.now b r.newDelivery).1 }.recording
    { accepted := p.accepted
      left := p.output.left
      journal := p.output.journal
      deliveries := (r.lastDelivery p b).events }

theorem remaining_nil {r : Receiver σ} {b : Batcher} (batching : r.batcher.start r.now = .ok b) :
    remaining [] r.now b r.newDelivery =
      (b.stop.2, Delivery.drain { r.newDelivery with queue := b.stop.1.toList }) := by
  obtain ⟨-, rfl⟩ := Batcher.start_eq_ok batching
  have notDue : Batcher.elapse r.now { r.batcher with phase := .running (r.batcher.nextDeadline r.now) } =
      (none, { r.batcher with phase := .running (r.batcher.nextDeadline r.now) }) :=
    Batcher.elapse_of_not_due rfl (Nat.not_lt.2 (Nat.le_add_right _ _))
  have rests : r.newDelivery.settle r.now = r.newDelivery := by
    have quiet : r.newDelivery.next? (some (r.now + 1)) = none := by simp [Delivery.next?, newDelivery]
    rw [Delivery.settle, Delivery.run_of_quiet quiet]
    show { r.newDelivery with now := max r.now r.now } = r.newDelivery
    rw [Nat.max_self]
    rfl
  simp only [remaining, Batcher.feed, notDue, Option.toList_none, List.append_nil, Delivery.feed, rests]
  rfl

variable [Operator σ]

/-- What starting a receiver gives. If its input does not start, tasks of other operators may have come to
their turns meanwhile, and what they sent may have left the pipeline. -/
inductive Starts (r : Receiver σ) : Except Failure Unit → Receiver σ → Prop
  | alone : Starts r r.start.1 r.start.2
  | amidst {pipeline : List (Stage σ)} {b : Batcher} {cause : Failure} {p q : Running σ}
      {asked : List Failure} (created : r.phase = .created pipeline)
      (batching : r.batcher.start r.now = .ok b)
      (fails : Running.FailsToStart r.now pipeline cause p) (meanwhile : p.Reaches asked q)
      (senderHeld : Bool) (visits : List Visit)
      (delivered : (r.lastDelivery (q.halt 0 senderHeld visits).2 b).isOver = true) :
      Starts r (.error (cause.context "failed to start the pipeline"))
        (r.rolledBack (q.halt 0 senderHeld visits).2 b)

inductive HostCall where
  | start (answer : Except Failure Unit)
  | shutdown (answer : Except Failure Unit)
  | isRunning (answer : Bool)
  | hasSender (answer : Bool)

inductive Answers (r : Receiver σ) : HostCall → Receiver σ → Prop
  | start {answer : Except Failure Unit} {r' : Receiver σ} (starts : r.Starts answer r') :
      Answers r (.start answer) r'
  | shutdown (senderHeld : Bool) (visits : List Visit) :
      Answers r (.shutdown (r.shutdown senderHeld visits).1) (r.shutdown senderHeld visits).2
  | isRunning : Answers r (.isRunning r.isRunning) r
  | hasSender : Answers r (.hasSender r.hasSender) r

/-- The states that a receiver comes to, with the calls of its host so far. -/
inductive Hosted (r₀ : Receiver σ) : List HostCall → Receiver σ → Prop
  | new : Hosted r₀ [] r₀
  | call {calls : List HostCall} {call : HostCall} {r r' : Receiver σ} (answers : r.Answers call r')
      (before : Hosted r₀ calls r) : Hosted r₀ (calls ++ [call]) r'
  | send {calls : List HostCall} {r : Receiver σ} (e : Entry) (before : Hosted r₀ calls r) :
      Hosted r₀ calls (r.send e).2
  | work {calls : List HostCall} {r : Receiver σ} {p q : Running σ} {d : Delivery}
      {asked : List Failure} (running : r.phase = .running p d) (steps : p.Reaches asked q)
      (before : Hosted r₀ calls r) : Hosted r₀ calls { r with now := q.now, phase := .running q d }
  | elapse {calls : List HostCall} {r : Receiver σ} (limit : Nat) (before : Hosted r₀ calls r) :
      Hosted r₀ calls (r.elapse limit)

/-! ### Starting -/

variable {r r' : Receiver σ} {calls : List HostCall} {p : Running σ} {d : Delivery} {b : Batcher}
  {pipeline : List (Stage σ)}

theorem start_of_not_created (old : ∀ pipeline, r.phase ≠ .created pipeline) :
    r.start = (.error alreadyStarted, r) := by
  rw [start]
  split
  · next pipeline created => exact absurd created (old pipeline)
  · rfl

theorem start_of_ok (created : r.phase = .created pipeline) (batching : r.batcher.start r.now = .ok b)
    (opened : Running.start r.now pipeline = .ok p) :
    r.start = (.ok (), { r with phase := .running p r.newDelivery, batcher := b }) := by
  simp only [start, created, batching, opened]
  rfl

theorem start_of_error {f : StartFailure} (created : r.phase = .created pipeline)
    (batching : r.batcher.start r.now = .ok b) (failed : Running.start r.now pipeline = .error f) :
    r.start = (.error (f.cause.context "failed to start the pipeline"),
      r.rolledBack { now := r.now, stages := [], output := { journal := f.journal } } b) := by
  simp only [start, created, batching, failed, rolledBack, lastDelivery, remaining_nil batching]
  rfl

/-- If its input fails while nothing else happens, starting a receiver rolls its pipeline back so. -/
theorem start_of_failsToStart {cause : Failure} (created : r.phase = .created pipeline)
    (batching : r.batcher.start r.now = .ok b) (fails : Running.FailsToStart r.now pipeline cause p) :
    r.start = (.error (cause.context "failed to start the pipeline"),
      r.rolledBack (p.halt 0 false []).2 b) := by
  obtain ⟨failed, now, left, accepted⟩ := fails.start_eq
  rw [start_of_error created batching failed]
  simp only [rolledBack, lastDelivery, now, left, accepted]

/-! ### What a start can be -/

namespace Starts

variable {answer : Except Failure Unit}

theorem of_not_created (h : r.Starts answer r') (old : ∀ pipeline, r.phase ≠ .created pipeline) :
    answer = .error alreadyStarted ∧ r' = r := by
  cases h with
  | alone =>
    rw [start_of_not_created old]
    exact ⟨rfl, rfl⟩
  | amidst created => exact absurd created (old _)

/-- A new receiver starts with its pipeline; otherwise the pipeline is rolled back, and what has left it is
delivered to the end. -/
theorem of_created (h : r.Starts answer r') (created : r.phase = .created pipeline)
    (batching : r.batcher.start r.now = .ok b) (empty : r.batcher.buffer = []) :
    (∃ p, Running.start r.now pipeline = .ok p ∧ answer = .ok () ∧
      r' = { r with phase := .running p r.newDelivery, batcher := b }) ∨
    ∃ f p, Running.start r.now pipeline = .error f ∧
      answer = .error (f.cause.context "failed to start the pipeline") ∧
      (r.lastDelivery p b).isOver = true ∧ r' = r.rolledBack p b := by
  cases h with
  | alone =>
    cases opened : Running.start r.now pipeline with
    | ok p =>
      rw [start_of_ok created batching opened]
      exact .inl ⟨p, rfl, rfl, rfl⟩
    | error f =>
      rw [start_of_error created batching opened]
      refine .inr ⟨f, _, rfl, rfl, ?_, rfl⟩
      have nothing : b.stop.1 = none := by
        obtain ⟨-, rfl⟩ := Batcher.start_eq_ok batching
        simp [Batcher.stop, Batcher.cut, empty]
      show ((remaining [] r.now b r.newDelivery).2.run none).isOver = true
      rw [remaining_nil batching, nothing]
      exact Delivery.isOver_run_of_empty rfl rfl rfl
  | @amidst row b' cause p q asked created' batching' fails meanwhile senderHeld visits delivered =>
    obtain rfl : pipeline = row := Phase.created.inj (created.symm.trans created')
    obtain rfl : b = b' := Except.ok.inj (batching.symm.trans batching')
    exact .inr ⟨_, _, fails.start_eq.1, rfl, delivered, rfl⟩

end Starts

/-! ### What a host can see -/

/-- Nothing but the clock moves in a receiver that is not started any more, or not yet. -/
theorem Hosted.still {r₀ : Receiver σ} (idle : r₀.isRunning = false)
    (unstarted : r₀.phase = .stopped ∨ ∀ answer, .start answer ∉ calls) (history : r₀.Hosted calls r) :
    r = { r₀ with now := r.now } := by
  have rests : ∀ t, ({ r₀ with now := t } : Receiver σ).isRunning = false := fun _ => idle
  induction history with
  | new => rfl
  | @call calls call r r' answers before ih =>
    have same := ih (unstarted.imp_right fun none answer mem => none answer (List.mem_append_left _ mem))
    suffices stays : r' = r by rw [stays]; exact same
    cases answers with
    | @start answer r' starts =>
      obtain stopped | none := unstarted
      · refine (starts.of_not_created fun pipeline created => ?_).2
        rw [same] at created
        cases stopped.symm.trans created
      · exact absurd (List.mem_append_right _ (List.mem_singleton_self _)) (none answer)
    | shutdown senderHeld visits => rw [shutdown_of_not_running (same ▸ rests r.now)]
    | isRunning => rfl
    | hasSender => rfl
  | @send calls r e before ih =>
    have same := ih unstarted
    rw [send_of_not_running (same ▸ rests r.now)]
    exact same
  | @work calls r p q d asked running steps before ih =>
    have same := ih unstarted
    exact absurd running (isRunning_eq_false_iff.1 (same ▸ rests r.now) p d)
  | @elapse calls r limit before ih =>
    have same := ih unstarted
    rw [elapse_of_not_running (same ▸ rests r.now), same]

theorem Hosted.at_call {r₀ : Receiver σ} {front back : List HostCall} {call : HostCall}
    (history : r₀.Hosted (front ++ call :: back) r) :
    ∃ s s', r₀.Hosted front s ∧ s.Answers call s' := by
  generalize hc : front ++ call :: back = calls at history
  induction history generalizing back with
  | new => simp at hc
  | @call calls last r r' answers before ih =>
    obtain rfl | ⟨init, final, rfl⟩ := List.eq_nil_or_concat back
    · obtain ⟨rfl, rfl⟩ := by simpa using hc
      exact ⟨r, r', before, answers⟩
    · have split : (front ++ call :: init) ++ [final] = calls ++ [last] := by simpa using hc
      exact ih (List.append_singleton_inj.1 split).1
  | send e before ih => exact ih hc
  | work running steps before ih => exact ih hc
  | elapse limit before ih => exact ih hc

end Receiver

end LogIntake
