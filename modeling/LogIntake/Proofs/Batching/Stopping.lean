import LogIntake.Proofs.Batching.Conservation

/-!
A stop of a collector that does not run. One that has stopped already stays as it is. One that was never
started is stopped all the same: it answers everything as before, up to a start.
-/
namespace LogIntake.Collector

variable {callback : Callback} {c : Collector}

def answers (callback : Callback) : List Request → Collector → List Answer
  | [], _ => []
  | request :: rest, c =>
    (c.serve callback request).1 :: answers callback rest (c.serve callback request).2

/-- A stop in front of the requests changes none of the answers and nothing that the callback is given. -/
def StopUnnoticed (callback : Callback) (now : Nat) (later : List Request) (c : Collector) : Prop :=
  let stopped := (c.serve callback (.stop now)).2
  answers callback later stopped = answers callback later c ∧
    (run callback later stopped).given = (run callback later c).given

/-- The requests have a start with a clock before any stop. -/
inductive Starts : List Request → Prop
  | here (now : Nat) (rest : List Request) : Starts (.start (some now) :: rest)
  | behind {request : Request} {rest : List Request} (other : ∀ now, request ≠ .stop now)
      (later : Starts rest) : Starts (request :: rest)

theorem not_starts_stop (now : Nat) (rest : List Request) : ¬ Starts (.stop now :: rest)
  | .behind other _ => other now rfl

/-! ### Before the first start -/

/-- A collector that was neither started nor stopped. -/
structure Fresh (c : Collector) : Prop where
  phase : c.batcher.phase = .created
  buffer : c.batcher.buffer = []

/-- The collector, stopped without any last batch. -/
def halt (c : Collector) : Collector :=
  { c with batcher := { c.batcher with phase := .stopped } }

theorem serve_stop_of_idle (idle : ¬ c.batcher.Runs) (now : Nat) :
    c.serve callback (.stop now) = (.done, c.halt) := by
  have stop : c.batcher.stop = (none, { c.batcher with phase := .stopped }) := by
    rw [Batcher.stop]
    split
    · next deadline running => exact absurd ⟨deadline, running⟩ idle
    · rfl
  simp only [serve, stop]
  rfl

theorem halt_of_stopped (stopped : c.batcher.phase = .stopped) : c.halt = c := by
  rw [halt, ← stopped]

theorem Fresh.not_runs (fresh : c.Fresh) : ¬ c.batcher.Runs := by
  rintro ⟨deadline, running⟩
  exact Batcher.Phase.noConfusion (fresh.phase.symm.trans running)

theorem not_runs_halt (c : Collector) : ¬ c.halt.batcher.Runs := by
  rintro ⟨deadline, running⟩
  exact Batcher.Phase.noConfusion running

/-- Requests other than a start with a clock and a stop leave a fresh collector fresh, and are answered
by one that was halted in the same way. -/
theorem Fresh.serve (fresh : c.Fresh) (callback : Callback) {request : Request}
    (noStart : ∀ now, request ≠ .start (some now)) (noStop : ∀ now, request ≠ .stop now) :
    (c.serve callback request).2.Fresh ∧
      c.halt.serve callback request =
        ((c.serve callback request).1, (c.serve callback request).2.halt) := by
  have phase := fresh.phase
  cases request with
  | start clock =>
    cases clock with
    | none => exact ⟨fresh, rfl⟩
    | some now => exact absurd rfl (noStart now)
  | add now e =>
    have refused : c.batcher.add now e = .error .notRunning := by simp [Batcher.add, phase]
    simp only [Collector.serve, refused]
    exact ⟨fresh, rfl⟩
  | flush now =>
    have nothing : c.batcher.flush now = (none, c.batcher) := by simp [Batcher.flush, phase]
    simp only [Collector.serve, nothing]
    exact ⟨fresh, rfl⟩
  | take => exact ⟨⟨phase, rfl⟩, rfl⟩
  | wait limit =>
    have nothing : c.batcher.elapse limit = (none, c.batcher) := by simp [Batcher.elapse, phase]
    simp only [Collector.serve, nothing]
    exact ⟨fresh, rfl⟩
  | stop now => exact absurd rfl (noStop now)

/-- A start tells a fresh collector from a halted one. -/
theorem Fresh.serve_start (fresh : c.Fresh) (callback : Callback) (now : Nat) :
    (c.serve callback (.start (some now))).1 = .done ∧
      (c.halt.serve callback (.start (some now))).1 = .refused .alreadyStarted := by
  have started : c.batcher.start now =
      .ok { c.batcher with phase := .running (c.batcher.nextDeadline now) } := by
    simp [Batcher.start, fresh.phase]
  simp only [Collector.serve, started]
  exact ⟨trivial, rfl⟩

/-- A fresh collector and the halted one are told apart by a start, and by nothing else. -/
theorem Fresh.halt_unnoticed_iff (fresh : c.Fresh) (later : List Request) :
    (answers callback later c.halt = answers callback later c ∧
      (run callback later c.halt).given = (run callback later c).given) ↔ ¬ Starts later := by
  induction later generalizing c with
  | nil => exact ⟨fun _ => nofun, fun _ => ⟨rfl, rfl⟩⟩
  | cons request rest ih =>
    by_cases isStart : ∃ now, request = .start (some now)
    · obtain ⟨now, rfl⟩ := isStart
      obtain ⟨done, refused⟩ := fresh.serve_start callback now
      refine iff_of_false ?_ fun none => none (.here now rest)
      rintro ⟨same, -⟩
      simp [answers, done, refused] at same
    · by_cases isStop : ∃ now, request = .stop now
      · -- from here on both are halted
        obtain ⟨now, rfl⟩ := isStop
        refine iff_of_true ?_ (not_starts_stop now rest)
        simp [answers, run, serve_stop_of_idle fresh.not_runs, serve_stop_of_idle (not_runs_halt c),
          halt_of_stopped (c := c.halt) rfl]
      · have noStart : ∀ now, request ≠ .start (some now) := fun now is => isStart ⟨now, is⟩
        have noStop : ∀ now, request ≠ .stop now := fun now is => isStop ⟨now, is⟩
        obtain ⟨still, alike⟩ := fresh.serve callback noStart noStop
        have starts : Starts (request :: rest) ↔ Starts rest := by
          constructor
          · rintro (⟨now, -⟩ | ⟨-, later⟩)
            · exact absurd rfl (noStart now)
            · exact later
          · exact .behind noStop
        simp only [answers, run, alike, List.cons.injEq, true_and, starts]
        exact ih still

/-! ### At any point of a run -/

theorem fresh_of_idle {limits : BatchLimits} (balanced : c.Balanced limits)
    (idle : ¬ c.batcher.Runs) (live : c.batcher.phase ≠ .stopped) : c.Fresh := by
  refine ⟨?_, balanced.sound.idle idle⟩
  cases phase : c.batcher.phase with
  | created => rfl
  | running deadline => exact absurd ⟨deadline, phase⟩ idle
  | stopped => exact absurd phase live

/-- Wherever a run has come to a collector that does not run, a stop goes unnoticed by all that is asked
later exactly if the collector has stopped before, or what is asked does not start it. -/
theorem idle_stop_unnoticed_iff {s : BatchSettings} {b : Batcher}
    (valid : Batcher.ofSettings s = .ok b) (callback : Callback) (before later : List Request)
    (now : Nat) (idle : ¬ (run callback before { batcher := b }).batcher.Runs) :
    StopUnnoticed callback now later (run callback before { batcher := b }) ↔
      (run callback before { batcher := b }).batcher.phase = .stopped ∨ ¬ Starts later := by
  have balanced := (balanced_ofSettings valid).run callback before
  generalize run callback before { batcher := b } = c at balanced idle ⊢
  rw [StopUnnoticed, serve_stop_of_idle idle]
  by_cases stopped : c.batcher.phase = .stopped
  · rw [halt_of_stopped stopped]
    exact iff_of_true ⟨rfl, rfl⟩ (.inl stopped)
  · rw [or_iff_right stopped]
    exact (fresh_of_idle balanced idle stopped).halt_unnoticed_iff later

def takesAll : Callback := fun _ _ => .ok ()

/-- After a run with a last batch, a second stop goes unnoticed even by a start. -/
theorem second_stop_unnoticed :
    (run takesAll [.start (some 0), .add 1 {}, .stop 2]
      { batcher := { limits := Batcher.pairs } }).given.length = 1 ∧
    StopUnnoticed takesAll 3 [.start (some 4), .add 5 {}, .flush 6]
      (run takesAll [.start (some 0), .add 1 {}, .stop 2]
        { batcher := { limits := Batcher.pairs } }) := by
  have valid : Batcher.ofSettings { maxFlushCount := 2 } = .ok { limits := Batcher.pairs } := rfl
  have idle : ¬ (run takesAll [.start (some 0), .add 1 {}, .stop 2]
      { batcher := { limits := Batcher.pairs } }).batcher.Runs := nofun
  exact ⟨rfl, (idle_stop_unnoticed_iff valid _ _ _ 3 idle).2 (.inl rfl)⟩

/-- A stop before the first start is noticed: the start is refused. -/
theorem early_stop_is_noticed :
    let c : Collector := { batcher := { limits := Batcher.pairs } }
    ¬ c.batcher.Runs ∧ ¬ StopUnnoticed takesAll 0 [.start (some 1)] c ∧
      answers takesAll [.start (some 1)] c = [.done] ∧
      answers takesAll [.stop 0, .start (some 1)] c = [.done, .refused .alreadyStarted] := by
  refine ⟨nofun, ?_, rfl, rfl⟩
  rintro ⟨same, -⟩
  cases same

end LogIntake.Collector
