import LogIntake.Proofs.Receiver.EndToEnd

/-!
What becomes of the failures of operators. While a receiver runs, each of them is reported to the host,
once and in the order in which they happened. A shutdown reports none, neither to the host nor in its own
result: neither those that nobody has read yet nor those that happen while the pipeline stops.
-/
namespace LogIntake

namespace Job

theorem failure_round? {around : Surroundings} {jobs : List Job} {round : Round}
    (had : round? around jobs = some round) {f : Failure} (hf : round.failure = some f) :
    ∃ owner cause, f = broken owner cause := by
  obtain ⟨front, owner, task, back, -, rfl⟩ := round?_eq_some had
  change failure? owner (task.turn around sendsPerTurn).state = some f at hf
  cases hs : (task.turn around sendsPerTurn).state with
  | ended result =>
    rw [hs] at hf
    cases result with
    | ok done => cases hf
    | error cause => exact ⟨owner, cause, (Option.some.inj hf).symm⟩
  | ready task =>
    rw [hs] at hf
    cases hf
  | asleep wakeAt task =>
    rw [hs] at hf
    cases hf
  | waiting task =>
    rw [hs] at hf
    cases hf

end Job

namespace Running

variable {σ : Type} [Operator σ]

/-! ### What fails in a pipeline -/

/-- The failure of an operator at work: of a stage that breaks, or of a task. -/
inductive OfOperator : Failure → Prop
  | stage (id : String) (cause : Failure) : OfOperator (Chain.broken id cause)
  | task (owner : String) (cause : Failure) : OfOperator (Job.broken owner cause)

/-- The states that a pipeline comes to, with the failures of its operators on the way, in the order in
which they happen. Some steps are taken only by a pipeline that stops. -/
inductive Suffers (stopping : Bool) (r₀ : Running σ) : List Failure → Running σ → Prop
  | start : Suffers stopping r₀ [] r₀
  | send {happened : List Failure} {r : Running σ} (e : Entry)
      (before : Suffers stopping r₀ happened r) : Suffers stopping r₀ happened (r.send e).2
  | take {happened : List Failure} {r : Running σ} {front back : List Entry}
      (queue : r.channel = some (front ++ back)) (before : Suffers stopping r₀ happened r) :
      Suffers stopping r₀ (happened ++ (Chain.passAll front r.stages).failure.toList)
        (r.take front back)
  | turn {happened : List Failure} {r : Running σ} {jobs : List Job} {round : Job.Round}
      (order : jobs.Perm r.jobs) (had : Job.round? r.surroundings jobs = some round)
      (before : Suffers stopping r₀ happened r) :
      Suffers stopping r₀ (happened ++ round.failure.toList) (r.afterRound round)
  | wake {happened : List Failure} {r : Running σ} (time : Nat)
      (before : Suffers stopping r₀ happened r) : Suffers stopping r₀ happened (r.wakeJobs time)
  | wait {happened : List Failure} {r : Running σ} (time : Nat)
      (before : Suffers stopping r₀ happened r) :
      Suffers stopping r₀ happened { r with now := max r.now time }
  | stopInput {happened : List Failure} {r : Running σ} (stops : stopping = true)
      (before : Suffers stopping r₀ happened r) : Suffers stopping r₀ happened r.stopInput.2
  | shutDown {happened : List Failure} {r : Running σ} (stops : stopping = true)
      (before : Suffers stopping r₀ happened r) : Suffers stopping r₀ happened r.shutDown
  | giveUp {happened : List Failure} {r : Running σ} (stops : stopping = true)
      (before : Suffers stopping r₀ happened r) : Suffers stopping r₀ happened { r with jobs := [] }
  | close {happened : List Failure} {r : Running σ} (stops : stopping = true)
      (before : Suffers stopping r₀ happened r) : Suffers stopping r₀ happened r.close

omit [Operator σ] in
theorem failures_send (e : Entry) (r : Running σ) : (r.send e).2.failures = r.failures := by
  rw [Running.send]
  split <;> rfl

omit [Operator σ] in
theorem exists_overAt_eq (deadline : Nat) (senderHeld : Bool) (r : Running σ) :
    ∃ t, r.overAt deadline senderHeld = max r.now t := by
  rw [Running.overAt]
  split
  · exact ⟨0, (Nat.max_zero _).symm⟩
  · exact ⟨deadline, rfl⟩

theorem failures_close (r : Running σ) : r.close.failures = r.failures := by
  rw [Running.close]
  split <;> rfl

theorem failures_take (front back : List Entry) (r : Running σ) :
    (r.take front back).failures = r.failures ++ (Chain.passAll front r.stages).failure.toList := by
  simp only [Running.take, Running.digest]
  split
  · rw [failures_close]
  · rfl

namespace Suffers

variable {stopping : Bool} {r₀ r : Running σ} {happened : List Failure}

theorem failures_eq (h : Suffers stopping r₀ happened r) : r.failures = r₀.failures ++ happened := by
  induction h with
  | start => rw [List.append_nil]
  | send e before ih => rw [failures_send, ih]
  | take queue before ih => rw [failures_take, ih, List.append_assoc]
  | turn order had before ih => rw [Running.afterRound, ih, List.append_assoc]
  | wake time before ih => exact ih
  | wait time before ih => exact ih
  | stopInput stops before ih => rw [failures_stopInput, ih]
  | shutDown stops before ih => exact ih
  | giveUp stops before ih => exact ih
  | close stops before ih => rw [failures_close, ih]

theorem ofOperator (h : Suffers stopping r₀ happened r) : ∀ f ∈ happened, OfOperator f := by
  induction h with
  | start => simp
  | send e before ih => exact ih
  | @take happened r front back queue before ih =>
    refine List.forall_mem_append.2 ⟨ih, fun f hf => ?_⟩
    rw [Option.mem_toList] at hf
    obtain ⟨none, -⟩ | ⟨id, cause, some, -⟩ := Chain.cases_of_passAll_eq
      (rfl : Chain.passAll front r.stages = _)
    · rw [none] at hf
      cases hf
    · rw [some] at hf
      cases hf
      exact .stage id cause
  | turn order had before ih =>
    refine List.forall_mem_append.2 ⟨ih, fun f hf => ?_⟩
    obtain ⟨owner, cause, rfl⟩ := Job.failure_round? had (Option.mem_toList.1 hf)
    exact .task owner cause
  | wake time before ih => exact ih
  | wait time before ih => exact ih
  | stopInput stops before ih => exact ih
  | shutDown stops before ih => exact ih
  | giveUp stops before ih => exact ih
  | close stops before ih => exact ih

/-! The pipeline's own steps are such steps. -/

theorem digest {waiting : List Entry} (queue : r.channel = some waiting)
    (h : Suffers stopping r₀ happened r) :
    ∃ more, Suffers stopping r₀ (happened ++ more) (r.digest waiting) := by
  rw [← take_nil]
  exact ⟨_, .take (by rw [queue, List.append_nil]) h⟩

theorem next? {limit : Nat} {r' : Running σ} (h : Suffers stopping r₀ happened r)
    (next : r.next? limit = some r') : ∃ more, Suffers stopping r₀ (happened ++ more) r' := by
  obtain ⟨-, ⟨e, rest, queue, rfl⟩ | ⟨-, round, had, rfl⟩ | ⟨-, -, t, -, -, rfl⟩⟩ :=
    next?_eq_some next
  · exact h.digest queue
  · exact ⟨_, .turn (List.Perm.refl _) had h⟩
  · exact ⟨[], by simpa using Suffers.wake t h⟩

theorem run (limit : Nat) (h : Suffers stopping r₀ happened r) :
    ∃ more, Suffers stopping r₀ (happened ++ more) (r.run limit) := by
  fun_induction Running.run limit r generalizing happened with
  | case1 r none => exact ⟨[], by simpa using h⟩
  | case2 r r' next ih =>
    obtain ⟨first, h⟩ := h.next? next
    obtain ⟨others, h⟩ := ih h
    exact ⟨first ++ others, by simpa using h⟩

theorem elapse (limit : Nat) (h : Suffers stopping r₀ happened r) :
    ∃ more, Suffers stopping r₀ (happened ++ more) (r.elapse limit) := by
  obtain ⟨more, h⟩ := h.run limit
  exact ⟨more, .wait limit h⟩

theorem receive (v : Visit) (h : Suffers stopping r₀ happened r) :
    Suffers stopping r₀ happened (r.receive v) := by
  have waited := Suffers.wait v.time h
  rw [Running.receive]
  cases v.entry with
  | none => exact waited
  | some e => exact .send e waited

theorem host (deadline : Nat) (visits : List Visit) (h : Suffers stopping r₀ happened r) :
    ∃ more, Suffers stopping r₀ (happened ++ more) (r.host deadline visits) := by
  induction visits generalizing happened r with
  | nil => exact h.run deadline
  | cons v rest ih =>
    obtain ⟨first, worked⟩ := h.run (min v.time deadline)
    simp only [Running.host]
    split
    · obtain ⟨others, h⟩ := ih (worked.receive v)
      exact ⟨first ++ others, by simpa using h⟩
    · obtain ⟨others, h⟩ := worked.run deadline
      exact ⟨first ++ others, by simpa using h⟩

theorem abandon (h : Suffers true r₀ happened r) :
    ∃ more, Suffers true r₀ (happened ++ more) r.abandon := by
  have alone := Suffers.giveUp rfl h
  rw [Running.abandon]
  cases hc : r.channel with
  | none => exact ⟨[], by simpa [hc] using alone⟩
  | some waiting =>
    have queue : ({ r with jobs := [] } : Running σ).channel = some waiting := hc
    obtain ⟨more, taken⟩ := alone.digest queue
    exact ⟨more, by simpa [hc] using taken⟩

theorem drain (h : Suffers true r₀ happened r) :
    ∃ more, Suffers true r₀ (happened ++ more) r.drain := by
  obtain ⟨more, left⟩ := h.abandon
  exact ⟨more, close_abandon r ▸ left.close rfl⟩

theorem outlive (limit : Nat) (senderHeld : Bool) (visits : List Visit) (h : Suffers true r₀ happened r) :
    ∃ more, Suffers true r₀ (happened ++ more) (r.outlive limit senderHeld visits) := by
  obtain ⟨first, hosted⟩ := h.host limit visits
  rw [Running.outlive]
  cases senderHeld with
  | true => exact ⟨first, hosted⟩
  | false =>
    obtain ⟨others, drained⟩ := hosted.drain
    exact ⟨first ++ others, by simpa using drained⟩

/-- However a pipeline stops, it stops by such steps. -/
theorem halt (r : Running σ) (timeout : Nat) (senderHeld : Bool) (visits : List Visit) :
    ∃ more, r.Suffers true more (r.halt timeout senderHeld visits).2 := by
  have told : r.Suffers true [] r.stopInput.2.shutDown := .shutDown rfl (.stopInput rfl .start)
  obtain ⟨first, hosted⟩ := told.host (r.now + timeout) visits
  obtain ⟨t, clock⟩ := exists_overAt_eq (r.now + timeout) senderHeld
    (r.stopInput.2.shutDown.host (r.now + timeout) visits)
  obtain ⟨others, drained⟩ := (hosted.wait t).drain
  rw [← clock, List.nil_append] at drained
  exact ⟨first ++ others, drained⟩

theorem haltWithin (r : Running σ) (timeout : Span) (senderHeld : Bool) (visits : List Visit) :
    ∃ more, r.Suffers true more (r.haltWithin timeout senderHeld visits).2 := by
  rw [Running.haltWithin]
  split
  · exact halt r timeout.ceilMilliseconds senderHeld visits
  · exact start.abandon

end Suffers

end Running

namespace Receiver

variable {σ : Type} [Operator σ]

open Running (OfOperator)

/-! ### What comes of the failures -/

/-- The states that a receiver comes to before it is shut down, with the failures of its operators so far.
The pipeline goes on by itself, its failures are read and reported one by one, and time passes. -/
inductive Lives (r₀ : Receiver σ) : List Failure → Receiver σ → Prop
  | start : Lives r₀ [] r₀
  | work {happened more : List Failure} {r : Receiver σ} {p q : Running σ} {d : Delivery}
      (running : r.phase = .running p d) (steps : p.Suffers false more q)
      (before : Lives r₀ happened r) :
      Lives r₀ (happened ++ more) { r with phase := .running q d }
  | report {happened rest : List Failure} {r : Receiver σ} {p : Running σ} {d : Delivery} {f : Failure}
      (running : r.phase = .running p d) (first : p.failures = f :: rest)
      (before : Lives r₀ happened r) :
      Lives r₀ happened
        ({ r with phase := .running { p with failures := rest } d }.recording { reported := [f] })
  | elapse {happened more : List Failure} {r : Receiver σ} {p : Running σ} {d : Delivery} (limit : Nat)
      (running : r.phase = .running p d) (steps : p.Suffers false more (p.elapse limit))
      (before : Lives r₀ happened r) : Lives r₀ (happened ++ more) (r.elapse limit)

/-- The receiver runs. What its operators failed with was reported, or waits to be, in the order in which
it happened. -/
structure Surfaces (happened : List Failure) (r : Receiver σ) (p : Running σ) (d : Delivery) : Prop where
  phase : r.phase = .running p d
  failures : r.record.reported ++ p.failures = happened
  ofOperator : ∀ f ∈ happened, OfOperator f

namespace Surfaces

variable {happened more : List Failure} {r : Receiver σ} {p q : Running σ} {d : Delivery}

theorem work (h : Surfaces happened r p d) (steps : p.Suffers false more q) :
    Surfaces (happened ++ more) { r with phase := .running q d } q d where
  phase := rfl
  failures := by rw [steps.failures_eq, ← List.append_assoc, h.failures]
  ofOperator := List.forall_mem_append.2 ⟨h.ofOperator, steps.ofOperator⟩

omit [Operator σ] in
theorem report (h : Surfaces happened r p d) {f : Failure} {rest : List Failure}
    (first : p.failures = f :: rest) :
    Surfaces happened
      ({ r with phase := .running { p with failures := rest } d }.recording { reported := [f] })
      { p with failures := rest } d where
  phase := rfl
  failures := by
    show r.record.reported ++ [f] ++ rest = happened
    rw [List.append_assoc, List.singleton_append, ← first, h.failures]
  ofOperator := h.ofOperator

/-- When time has passed, no failure waits. -/
theorem elapse (h : Surfaces happened r p d) (limit : Nat)
    (steps : p.Suffers false more (p.elapse limit)) :
    ∃ q e, Surfaces (happened ++ more) (r.elapse limit) q e ∧
      (r.elapse limit).record.reported = happened ++ more := by
  have reported : (r.elapse limit).record.reported = happened ++ more := by
    simp only [Receiver.elapse, h.phase]
    show r.record.reported ++ (p.elapse limit).failures = happened ++ more
    rw [steps.failures_eq, ← List.append_assoc, h.failures]
  have ofOperator : ∀ f ∈ happened ++ more, OfOperator f :=
    List.forall_mem_append.2 ⟨h.ofOperator, steps.ofOperator⟩
  have running : ∃ q e, (r.elapse limit).phase = .running q e ∧ q.failures = [] := by
    simp only [Receiver.elapse, h.phase]
    exact ⟨_, _, rfl, rfl⟩
  obtain ⟨q, e, phase, read⟩ := running
  exact ⟨q, e, ⟨phase, by rw [reported, read, List.append_nil], ofOperator⟩, reported⟩

end Surfaces

theorem surfaces_start {registry : Registry σ} {load : String → Except LoadError TemplateSet}
    {consumer : Consumer} {s : Settings} {r r' : Receiver σ}
    (built : ofSettings registry load consumer s = .ok r) (started : r.start = (.ok (), r')) :
    ∃ p d, Surfaces [] r' p d := by
  obtain ⟨-, -, empty⟩ := ofSettings_eq_ok built
  obtain ⟨pipeline, batcher, p, -, -, opened, rfl⟩ := start_eq_ok started
  have fresh := Running.isFresh_of_start opened
  exact ⟨p, _, rfl, by simp [empty, fresh.failures], by simp⟩

theorem Lives.surfaces {r₀ r : Receiver σ} {happened : List Failure} {p : Running σ} {d : Delivery}
    (h : Surfaces [] r₀ p d) (history : r₀.Lives happened r) : ∃ q e, Surfaces happened r q e := by
  induction history with
  | start => exact ⟨p, d, h⟩
  | work running steps before ih =>
    obtain ⟨q, e, ih⟩ := ih
    obtain ⟨rfl, rfl⟩ := Phase.running.inj (running.symm.trans ih.phase)
    exact ⟨_, _, ih.work steps⟩
  | report running first before ih =>
    obtain ⟨q, e, ih⟩ := ih
    obtain ⟨rfl, rfl⟩ := Phase.running.inj (running.symm.trans ih.phase)
    exact ⟨_, _, ih.report first⟩
  | elapse limit running steps before ih =>
    obtain ⟨q, e, ih⟩ := ih
    obtain ⟨rfl, rfl⟩ := Phase.running.inj (running.symm.trans ih.phase)
    obtain ⟨q, e, kept, -⟩ := ih.elapse limit steps
    exact ⟨q, e, kept⟩

/-! ### The shutdown -/

omit [Operator σ] in
theorem not_ofOperator_notStopped (id : String) (cause : Failure) :
    ¬ OfOperator (Chain.notStopped id cause) := by
  intro h
  generalize hf : Chain.notStopped id cause = f at h
  have texts := congrArg (fun f => f.outermost.toList) hf
  cases h with
  | stage id' cause' => simp [Chain.notStopped, Chain.broken] at texts
  | task owner cause' => simp [Chain.notStopped, Job.broken] at texts

omit [Operator σ] in
theorem not_ofOperator_of_reasons_eq_nil {f : Failure} (alone : f.reasons = []) : ¬ OfOperator f := by
  intro h
  cases h with
  | stage id cause => cases alone
  | task owner cause => cases alone

theorem stopInput_eq_error {p : Running σ} {f : Failure} (failed : p.stopInput.1 = .error f) :
    ∃ id cause, f = Chain.notStopped id cause := by
  rw [Running.stopInput] at failed
  split at failed
  · cases failed
  · next s _ =>
    obtain ⟨cause, -, rfl⟩ := mapError_eq_error_iff.1 failed
    exact ⟨s.id, cause, rfl⟩

theorem haltWithin_eq_error {p : Running σ} {timeout : Span} {senderHeld : Bool} {visits : List Visit}
    {f : Failure} (failed : (p.haltWithin timeout senderHeld visits).1 = .error f) :
    (∃ id cause, f = Chain.notStopped id cause) ∨ f = Running.brokenOff := by
  rw [Running.haltWithin] at failed
  split at failed
  · exact .inl (stopInput_eq_error failed)
  · exact .inr (Except.error.inj failed).symm

/-- A shutdown fails because the input does not stop, because the clock cannot show the deadline, or because
the delivery takes too long. -/
theorem shutdown_eq_error {r : Receiver σ} {senderHeld : Bool} {visits : List Visit} {f : Failure}
    (failed : (r.shutdown senderHeld visits).1 = .error f) :
    (∃ id cause, f = Chain.notStopped id cause) ∨ f = Running.brokenOff ∨
      f = undelivered r.shutdownTimeout := by
  by_cases running : r.isRunning = true
  · obtain ⟨p, d, phase⟩ := isRunning_eq_true_iff.1 running
    rw [shutdown_of_running phase, answer_conclude] at failed
    split at failed
    · split at failed
      · cases failed
      · exact .inr (.inr (Except.error.inj failed).symm)
    · next cause stopped =>
      obtain rfl := Except.error.inj failed
      exact (haltWithin_eq_error stopped).imp_right .inl
  · rw [shutdown_of_not_running (Bool.eq_false_iff.2 running)] at failed
    cases failed

theorem shutdown_ne_error (r : Receiver σ) (senderHeld : Bool) (visits : List Visit) {f : Failure}
    (own : OfOperator f) : (r.shutdown senderHeld visits).1 ≠ .error f := by
  intro failed
  obtain ⟨id, cause, rfl⟩ | rfl | rfl := shutdown_eq_error failed
  · exact not_ofOperator_notStopped id cause own
  · exact not_ofOperator_of_reasons_eq_nil rfl own
  · exact not_ofOperator_of_reasons_eq_nil rfl own

theorem reported_shutdown (r : Receiver σ) (senderHeld : Bool) (visits : List Visit) :
    (r.shutdown senderHeld visits).2.record.reported = r.record.reported := by
  rw [shutdown]
  split
  · exact reported_conclude _ r
  · rfl

/-- All that happens to the pipeline up to the end of a shutdown, left behind or not. -/
theorem suffers_ending (senderHeld : Bool) (visits : List Visit) (p : Running σ) (d : Delivery)
    (r : Receiver σ) : ∃ more, p.Suffers true more (r.ending senderHeld visits p d).pipeline := by
  obtain ⟨first, stopped⟩ := Running.Suffers.haltWithin p r.shutdownTimeout senderHeld visits
  obtain ⟨others, last⟩ := stopped.outlive _ senderHeld visits
  exact ⟨first ++ others, last⟩

/-- Each failure of an operator is reported once, in the order in which it happens, or waits to be
reported; when time passes in which nobody shuts the receiver down, none is left to wait. A shutdown
reports nothing more: not what waits, and not what fails while the pipeline stops, and its own error is
never the failure of an operator. So all failures are surfaced just if none waits when the receiver shuts
down and none happens from then on. -/
theorem failures_surface_until_shutdown {registry : Registry σ}
    {load : String → Except LoadError TemplateSet} {consumer : Consumer} {s : Settings}
    {r₀ r₁ r : Receiver σ} {happened : List Failure}
    (built : ofSettings registry load consumer s = .ok r₀) (started : r₀.start = (.ok (), r₁))
    (history : r₁.Lives happened r) (senderHeld : Bool) (visits : List Visit) :
    ∃ p d, r.phase = .running p d ∧
      r.record.reported ++ p.failures = happened ∧ (∀ f ∈ happened, OfOperator f) ∧
      (∀ limit, ∃ more, r₁.Lives (happened ++ more) (r.elapse limit) ∧
        (r.elapse limit).record.reported = happened ++ more) ∧
      ∃ last, p.Suffers true last (r.ending senderHeld visits p d).pipeline ∧
        (∀ f ∈ last, OfOperator f) ∧
        (r.shutdown senderHeld visits).2.record.reported = r.record.reported ∧
        (∀ f, OfOperator f → (r.shutdown senderHeld visits).1 ≠ .error f) ∧
        ((r.shutdown senderHeld visits).2.record.reported = happened ++ last ↔
          p.failures = [] ∧ last = []) := by
  obtain ⟨p₀, d₀, fresh⟩ := surfaces_start built started
  obtain ⟨p, d, surfaces⟩ := history.surfaces fresh
  obtain ⟨last, halts⟩ := suffers_ending senderHeld visits p d r
  refine ⟨p, d, surfaces.phase, surfaces.failures, surfaces.ofOperator, fun limit => ?_, last, halts,
    halts.ofOperator, reported_shutdown r senderHeld visits,
    fun f => shutdown_ne_error r senderHeld visits, ?_⟩
  · have now : p.Suffers false [] p := .start
    obtain ⟨more, steps⟩ := now.elapse limit
    obtain ⟨-, -, -, reported⟩ := surfaces.elapse limit steps
    exact ⟨more, .elapse limit surfaces.phase steps history, reported⟩
  · rw [reported_shutdown, ← surfaces.failures, List.append_assoc, List.self_eq_append_right,
      List.append_eq_nil_iff]

end Receiver

/-- An operator with a task that fails after a while. -/
structure Alarm where
  delay : Nat

namespace Alarm

instance : Operator Alarm where
  start s := { operator := s, tasks := [.sleep s.delay (.finish (.error ⟨"boom", []⟩))] }

def alarmType : OperatorType Alarm := ⟨"alarm", .intermediate, fun _ _ => .ok ⟨50⟩⟩

def settings : Settings where
  pipeline := [[("type", .leaf (.string "alarm"))]]
  batch := { maxFlushCount := 2 }

def silent : Receiver Alarm where
  phase := .created [⟨"alarm", "alarm", .intermediate, ⟨50⟩⟩]
  batcher := { limits := Batcher.pairs }
  policy := .ofSettings {}
  shutdownTimeout := .ofSeconds 10
  consumer := fun _ _ => {}

def armed : Receiver Alarm := silent.start.2

def pipeline : Running Alarm where
  now := 0
  stages := [⟨"alarm", "alarm", .intermediate, ⟨50⟩⟩]
  jobs := [⟨"alarm", .ready (.sleep 50 (.finish (.error ⟨"boom", []⟩)))⟩]

def boom : Failure := Job.broken "alarm" ⟨"boom", []⟩

theorem boom_surfaces :
    Receiver.ofSettings (.ofTypes [alarmType]) (fun _ => .ok .empty) (fun _ _ => {}) settings =
      .ok silent ∧
    silent.start = (.ok (), armed) ∧ armed.Lives [boom] (armed.elapse 60) ∧
    ((armed.elapse 60).shutdown false).2.record.reported = [boom] := by
  have built : Receiver.ofSettings (.ofTypes [alarmType]) (fun _ => .ok .empty) (fun _ _ => {})
      settings = .ok silent := rfl
  have started : silent.start = (.ok (), armed) := rfl
  have running : ∃ d, armed.phase = .running pipeline d := ⟨_, rfl⟩
  obtain ⟨d, running⟩ := running
  have history : armed.Lives [boom] (armed.elapse 60) := by
    have now : pipeline.Suffers false [] pipeline := .start
    obtain ⟨more, steps⟩ := now.elapse 60
    have rings : (pipeline.elapse 60).failures = [boom] := by decide +kernel
    have same : more = [boom] := by rw [← rings, steps.failures_eq]; rfl
    have lives := Receiver.Lives.start.elapse 60 running steps
    rwa [same] at lives
  obtain ⟨_, _, -, -, -, -, _, -, -, kept, -, -⟩ :=
    Receiver.failures_surface_until_shutdown built started history false []
  have reported : (armed.elapse 60).record.reported = [boom] := by decide +kernel
  exact ⟨built, started, history, kept.trans reported⟩

/-- The task fails while the receiver shuts down and waits for it, and nobody gets to know. -/
theorem boom_in_shutdown_is_silent :
    ∃ d last, armed.phase = .running pipeline d ∧
      pipeline.Suffers true last (armed.ending false [] pipeline d).pipeline ∧ last = [boom] ∧
      (armed.shutdown false).1 = .ok () ∧ (armed.shutdown false).2.record.reported = [] := by
  have running : ∃ d, armed.phase = .running pipeline d := ⟨_, rfl⟩
  obtain ⟨d, running⟩ := running
  obtain ⟨last, halts⟩ := Receiver.suffers_ending false [] pipeline d armed
  have onClock : armed.shutdownTimeout.endsOnClock pipeline.now = true := by decide +kernel
  have whole := Receiver.pipeline_of_endsOnClock onClock false [] d
  have rings : (pipeline.halt 10000 false []).2.failures = [boom] := by decide +kernel
  have same : last = [boom] := by
    have failed := halts.failures_eq
    rw [whole] at failed
    exact (failed.symm.trans rings : [] ++ last = [boom])
  have inTime : armed.deliversInTime false [] = true := by decide +kernel
  have outcome : (armed.shutdown false).1 = .ok () := by
    rw [Receiver.deliversInTime_of_running running] at inTime
    rw [Receiver.shutdown_of_running running, Receiver.answer_conclude, inTime]
    rfl
  exact ⟨d, last, running, halts, same, outcome, by rw [Receiver.reported_shutdown]; rfl⟩

end Alarm

end LogIntake
