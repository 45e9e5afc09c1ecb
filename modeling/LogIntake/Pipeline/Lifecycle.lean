import LogIntake.Pipeline.Running
import LogIntake.Span

/-!
How a pipeline starts and stops. The stages start from the last to the first, so that nothing comes
in before all are ready, and stop from the first to the last. If one does not start, those behind it
are stopped again. When a pipeline stops, its jobs have some time to end; then it gives up on them,
and what has come in still goes through the stages.
-/
namespace LogIntake

/-- What starting a row of stages gave. If one of them failed, those behind it are stopped again and
no job is left. -/
structure Launch (σ : Type) where
  stages : List (Stage σ)
  jobs : List Job := []
  journal : List String := []
  failure : Option Failure := none

/-- Why a pipeline did not start, and what its operators wrote in the attempt. -/
structure StartFailure where
  cause : Failure
  journal : List String := []

structure Finished where
  now : Nat
  output : Output
  outcome : Except Failure Unit := .ok ()

/-- Somebody comes by who holds a sender, and may send an entry. -/
structure Visit where
  time : Nat
  entry : Option Entry := none

namespace Chain

variable {σ : Type} [Operator σ]

def notStarted (id : String) (cause : Failure) : Failure :=
  cause.context ("operator '" ++ id ++ "' failed to start")

def notStopped (id : String) (cause : Failure) : Failure :=
  cause.context ("failed to stop operator '" ++ id ++ "'")

/-- Starts stages from the last to the first, up to one that fails. -/
def startAll : List (Stage σ) → Launch σ
  | [] => { stages := [] }
  | s :: rest =>
    let l := startAll rest
    if l.failure.isSome then { l with stages := s :: l.stages }
    else
      let p := Operator.start s.operator
      let s := { s with operator := p.operator }
      let journal := l.journal ++ p.journal
      match p.outcome with
      | .ok () => { stages := s :: l.stages, jobs := l.jobs ++ Job.spawnAll s.id p.tasks, journal }
      | .error cause =>
        let q := stopAll l.stages
        { stages := s :: q.stages
          journal := journal ++ q.journal
          failure := some (notStarted s.id cause) }

end Chain

namespace Running

variable {σ : Type} [Operator σ]

def split : List (Stage σ) → Option (Stage σ) × List (Stage σ)
  | s :: rest => if s.capability = .input then (some s, rest) else (none, s :: rest)
  | [] => (none, [])

/-- Starts a pipeline, the input last. An input that fails is stopped too. -/
def start (now : Nat) (pipeline : List (Stage σ)) : Except StartFailure (Running σ) :=
  let (input, stages) := split pipeline
  let l := Chain.startAll stages
  match l.failure with
  | some cause => .error ⟨cause, l.journal⟩
  | none =>
    let r : Running σ :=
      { now, stages := l.stages, jobs := l.jobs, output := { journal := l.journal } }
    match input with
    | none => .ok r
    | some s =>
      let p := Operator.start s.operator
      let journal := l.journal ++ p.journal
      match p.outcome with
      | .ok () =>
        .ok
          { r with
            input := some { s with operator := p.operator }
            jobs := l.jobs ++ Job.spawnAll s.id p.tasks
            output := { journal } }
      | .error cause =>
        .error
          { cause := Chain.notStarted s.id cause
            journal := journal ++ (Operator.stop p.operator).journal ++
              (Chain.stopAll l.stages).journal }

/-- What a start that succeeds gives: the stages and the input, if there is one, have all started. -/
theorem start_eq_ok {now : Nat} {pipeline : List (Stage σ)} {r : Running σ}
    (h : start now pipeline = .ok r) :
    let l := Chain.startAll (split pipeline).2
    l.failure = none ∧
      ((split pipeline).1 = none ∧
          r = { now, stages := l.stages, jobs := l.jobs, output := { journal := l.journal } } ∨
        ∃ s, (split pipeline).1 = some s ∧ (Operator.start s.operator).outcome = .ok () ∧
          r =
            { now
              input := some { s with operator := (Operator.start s.operator).operator }
              stages := l.stages
              jobs := l.jobs ++ Job.spawnAll s.id (Operator.start s.operator).tasks
              output := { journal := l.journal ++ (Operator.start s.operator).journal } }) := by
  rw [start] at h
  generalize split pipeline = both at h ⊢
  obtain ⟨input, stages⟩ := both
  dsimp only at h ⊢
  split at h
  · cases h
  · next behind =>
    refine ⟨behind, ?_⟩
    cases input with
    | none => exact .inl ⟨rfl, (Except.ok.inj h).symm⟩
    | some s =>
      dsimp only at h
      split at h
      · next started => exact .inr ⟨s, rfl, started, (Except.ok.inj h).symm⟩
      · cases h

/-- What a start that fails gives: a stage behind the input does not start, or else the input does not. -/
theorem start_eq_error {now : Nat} {pipeline : List (Stage σ)} {f : StartFailure}
    (h : start now pipeline = .error f) :
    let l := Chain.startAll (split pipeline).2
    (∃ cause, l.failure = some cause ∧ f = ⟨cause, l.journal⟩) ∨
      ∃ s cause, (split pipeline).1 = some s ∧ l.failure = none ∧
        (Operator.start s.operator).outcome = .error cause ∧
        f =
          { cause := Chain.notStarted s.id cause
            journal := l.journal ++ (Operator.start s.operator).journal ++
              (Operator.stop (Operator.start s.operator).operator).journal ++
              (Chain.stopAll l.stages).journal } := by
  rw [start] at h
  generalize split pipeline = both at h ⊢
  obtain ⟨input, stages⟩ := both
  dsimp only at h ⊢
  split at h
  · next cause failed => exact .inl ⟨cause, failed, (Except.error.inj h).symm⟩
  · next behind =>
    cases input with
    | none => cases h
    | some s =>
      dsimp only at h
      split at h
      · cases h
      · next cause refused => exact .inr ⟨s, cause, rfl, behind, refused, (Except.error.inj h).symm⟩

def stopInput (r : Running σ) : Except Failure Unit × Running σ :=
  match r.input with
  | none => (.ok (), r)
  | some s =>
    let p := Operator.stop s.operator
    (p.outcome.mapError (Chain.notStopped s.id),
      { r with
        input := some { s with operator := p.operator }
        output := { r.output with journal := r.output.journal ++ p.journal } })

@[simp] theorem stages_stopInput (r : Running σ) : r.stopInput.2.stages = r.stages := by
  unfold stopInput
  split <;> rfl

@[simp] theorem channel_stopInput (r : Running σ) : r.stopInput.2.channel = r.channel := by
  rw [stopInput]
  split <;> rfl

@[simp] theorem accepted_stopInput (r : Running σ) : r.stopInput.2.accepted = r.accepted := by
  rw [stopInput]
  split <;> rfl

@[simp] theorem left_stopInput (r : Running σ) : r.stopInput.2.output.left = r.output.left := by
  rw [stopInput]
  split <;> rfl

@[simp] theorem failures_stopInput (r : Running σ) : r.stopInput.2.failures = r.failures := by
  rw [stopInput]
  split <;> rfl

theorem journal_stopInput (r : Running σ) :
    ∃ notes, r.stopInput.2.output.journal = r.output.journal ++ notes := by
  rw [stopInput]
  split
  · exact ⟨[], (List.append_nil _).symm⟩
  · exact ⟨_, rfl⟩

def shutDown (r : Running σ) : Running σ :=
  { r with shuttingDown := true, jobs := r.jobs.map Job.shutDown }

/-- When a pipeline that shuts down is over: as soon as no entry can come any more, and at the
deadline otherwise. -/
def overAt (deadline : Nat) (senderHeld : Bool) (r : Running σ) : Nat :=
  if r.jobs.isEmpty && !(r.isOpen && senderHeld) then r.now else max r.now deadline

/-- Gives up on the jobs, lets what has come in go through the stages, and stops them. -/
def drain (r : Running σ) : Running σ :=
  let r := { r with jobs := [] }
  match r.channel with
  | some waiting => (r.digest waiting).close
  | none => r

def receive (v : Visit) (r : Running σ) : Running σ :=
  let r := { r with now := max r.now v.time }
  match v.entry with
  | some e => (r.send e).2
  | none => r

/-- Works up to the deadline, while others come by at their times. Nobody comes any more once the
pipeline has nothing left to wait for. -/
def host (deadline : Nat) : List Visit → Running σ → Running σ
  | [], r => r.run deadline
  | v :: rest, r =>
    let r := r.run (min v.time deadline)
    if v.time < deadline && (r.isOpen || !r.jobs.isEmpty) then host deadline rest (r.receive v)
    else r.run deadline

/-- Stops a pipeline whose deadline the clock can show: its last state. Others may come by while it stops,
and somebody may hold on to a sender to the end. -/
def halt (timeout : Nat) (senderHeld : Bool) (visits : List Visit) (r : Running σ) :
    Except Failure Unit × Running σ :=
  let deadline := r.now + timeout
  let (outcome, r) := r.stopInput
  let r := r.shutDown.host deadline visits
  (outcome, drain { r with now := r.overAt deadline senderHeld })

def stop (timeout : Nat) (senderHeld : Bool) (r : Running σ) (visits : List Visit := []) : Finished :=
  let (outcome, r) := r.halt timeout senderHeld visits
  { now := r.now, output := r.output, outcome }

/-! ### Deadlines that no clock shows -/

/-- The failure of a stop whose deadline the clock cannot show. The message also has the number of a task in
it, which is left out here. -/
def brokenOff : Failure :=
  ⟨"the supervisor of the pipeline failed: task panicked with message " ++
    "\"overflow when adding duration to instant\"", []⟩

/-- What a stop leaves behind that breaks off before it has stopped anything. There are no jobs any more, but
nobody has told the stages: they go on by themselves as long as somebody can send. -/
def abandon (r : Running σ) : Running σ :=
  let r := { r with jobs := [] }
  match r.channel with
  | some waiting => r.digest waiting
  | none => r

/-- A pipeline that gives up on its jobs stops the stages as well. -/
theorem close_abandon (r : Running σ) : r.abandon.close = r.drain := by
  cases hc : r.channel with
  | none => simp [abandon, drain, close, hc]
  | some waiting => simp only [abandon, drain, hc]

/-- What becomes up to a time of stages that were left behind. They stop once nobody holds a sender. -/
def outlive (limit : Nat) (senderHeld : Bool) (visits : List Visit) (r : Running σ) : Running σ :=
  let r := r.host limit visits
  if senderHeld then r else r.drain

/-- Stops a pipeline within a time. If the clock cannot show the deadline, the stop breaks off. -/
def haltWithin (timeout : Span) (senderHeld : Bool) (visits : List Visit) (r : Running σ) :
    Except Failure Unit × Running σ :=
  if timeout.endsOnClock r.now then r.halt timeout.ceilMilliseconds senderHeld visits
  else (.error brokenOff, r.abandon)

end Running

end LogIntake
