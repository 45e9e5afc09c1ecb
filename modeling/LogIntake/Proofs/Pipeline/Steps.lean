import LogIntake.Proofs.Pipeline.Work

/-!
Every step of a pipeline is a stretch of its work: sending, the turns of the jobs, the clock, the
stages at work and all of stopping. The stages may take any part of what waits, so the order in which
stages and jobs have their turns does not matter.
-/
namespace LogIntake

/-! ### Jobs -/

theorem Task.sent_turn_of_closed {around : Surroundings} (closed : around.isOpen = false) (room : Nat)
    (t : Task) : (t.turn around room).sent = [] := by
  induction t generalizing room with
  | finish result => simp [turn]
  | send e next ih =>
    cases room with
    | zero => rfl
    | succ room => simpa [turn, closed] using ih false room
  | sleep milliseconds next => simp [turn]
  | awaitShutdown next ih =>
    rw [turn]
    split
    · exact ih room
    · rfl

namespace Job

theorem sent_round?_of_closed {around : Surroundings} (closed : around.isOpen = false)
    {jobs : List Job} {round : Round} (h : round? around jobs = some round) : round.sent = [] := by
  obtain ⟨front, owner, task, back, -, rfl⟩ := round?_eq_some h
  exact Task.sent_turn_of_closed closed sendsPerTurn task

theorem not_ofStage_of_round? {around : Surroundings} {jobs : List Job} {round : Round}
    (h : round? around jobs = some round) {f : Failure} (hf : round.failure = some f) :
    ¬ Chain.OfStage f := by
  obtain ⟨front, owner, task, back, -, rfl⟩ := round?_eq_some h
  simp only at hf
  cases hs : (task.turn around sendsPerTurn).state with
  | ended result =>
    rw [hs] at hf
    cases result with
    | ok _ => cases hf
    | error cause =>
      obtain rfl := Option.some.inj hf
      exact Chain.not_ofStage_of_job owner cause
  | ready _ => simp [hs, failure?] at hf
  | asleep _ _ => simp [hs, failure?] at hf
  | waiting _ => simp [hs, failure?] at hf

end Job

namespace Running

variable {σ : Type} [Operator σ]

/-- The stages take the entries in front, while others come in behind these. -/
def take (front back : List Entry) (r : Running σ) : Running σ :=
  { r.digest front with channel := (r.digest front).channel.map (· ++ back) }

theorem take_nil (front : List Entry) (r : Running σ) : r.take front [] = r.digest front := by
  simp only [take, List.append_nil, Option.map_id_fun', id]

/-! ### Single steps -/

namespace Becomes

theorem send (e : Entry) (r : Running σ) : Becomes {} r (r.send e).2 := by
  cases hc : r.channel with
  | none => simpa [Running.send, hc] using refl r
  | some waiting =>
    have queue : waiting ++ [e] = [] ++ (waiting ++ [e]) := rfl
    have passed : Chain.passAll [] r.stages = ⟨r.stages, [], [], none⟩ := rfl
    refine ⟨⟨[e], [], [], []⟩, ?_, ?_⟩
    · simp [Running.send, hc, yield, Running.left, Yield.mk_append_mk]
    · simpa [Running.send, hc] using Chain.Works.goesOn queue passed Chain.reports_none_nil

/-- A turn of a job. A pipeline that is closed accepts nothing from it. -/
theorem afterRound {round : Job.Round} {r : Running σ} (closed : r.channel = none → round.sent = [])
    (failed : ∀ f, round.failure = some f → ¬ Chain.OfStage f) :
    Becomes {} r (r.afterRound round) := by
  have reports : Chain.Reports none round.failure.toList := by
    rw [Chain.reports_none_iff]
    intro f hf
    exact failed f (Option.mem_toList.1 hf)
  refine ⟨⟨round.sent, [], [], round.failure.toList⟩, ?_, ?_⟩
  · simp [Running.afterRound, yield, Running.left, Yield.mk_append_mk]
  · cases hc : r.channel with
    | none =>
      rw [closed hc]
      simpa [Running.afterRound, hc] using Chain.Works.rests r.stages reports
    | some waiting =>
      have queue : waiting ++ round.sent = [] ++ (waiting ++ round.sent) := rfl
      have passed : Chain.passAll [] r.stages = ⟨r.stages, [], [], none⟩ := rfl
      simpa [Running.afterRound, hc] using Chain.Works.goesOn queue passed reports

theorem turn {r : Running σ} {jobs : List Job} {round : Job.Round}
    (had : Job.round? r.surroundings jobs = some round) : Becomes {} r (r.afterRound round) := by
  refine afterRound (fun hc => ?_) fun f hf => Job.not_ofStage_of_round? had hf
  exact Job.sent_round?_of_closed (by simp [surroundings, isOpen, hc]) had

theorem close {r : Running σ} (h : r.backlog = 0) : Becomes {} r r.close := by
  rcases backlog_eq_zero_iff.1 h with hc | hc
  · simpa [Running.close, hc] using refl r
  · have passed : Chain.passAll ([] ++ []) r.stages = ⟨r.stages, [], [], none⟩ := rfl
    refine ⟨⟨[], [], (Chain.stopAll r.stages).journal, []⟩, ?_, ?_⟩
    · simp [Running.close, hc, yield, Running.left, Yield.mk_append_mk]
    · simpa [Running.close, hc] using Chain.Works.ends passed Chain.reports_none_nil

/-- The stages take some of what waits. If one of them breaks, the others in the channel are lost. -/
theorem take {front back : List Entry} {r : Running σ} (queue : r.channel = some (front ++ back)) :
    Becomes {} r (r.take front back) := by
  cases hp : Chain.passAll front r.stages with
  | mk last journal left failure =>
    cases failure with
    | none =>
      refine ⟨⟨[], left, journal, []⟩, ?_, ?_⟩
      · simp [Running.take, digest, hp, yield, Running.left, Yield.mk_append_mk, Function.comp_def]
      · have works := Chain.Works.goesOn (List.append_nil (front ++ back)) hp Chain.reports_none_nil
        simpa [Running.take, digest, hp, queue] using works
    | some f =>
      have passed : Chain.passAll (front ++ back ++ []) r.stages = ⟨last, journal, left, some f⟩ := by
        rw [List.append_nil, Chain.passAll_append, hp]
      refine ⟨⟨[], left, journal ++ (Chain.stopAll last).journal, [f]⟩, ?_, ?_⟩
      · simp [Running.take, digest, Running.close, hp, yield, Running.left, Yield.mk_append_mk, Function.comp_def]
      · have works := Chain.Works.ends passed (Chain.reports_toList (some f))
        simpa [Running.take, digest, Running.close, hp, queue] using works

theorem digest {waiting : List Entry} {r : Running σ} (queue : r.channel = some waiting) :
    Becomes {} r (r.digest waiting) := by
  rw [← take_nil]
  exact take (by rw [queue, List.append_nil])

/-! ### Whole runs -/

theorem wakeJobs (t : Nat) (r : Running σ) : Becomes {} r (r.wakeJobs t) := of_eq rfl rfl rfl

theorem next? {limit : Nat} {r r' : Running σ} (h : r.next? limit = some r') : Becomes {} r r' := by
  obtain ⟨-, ⟨e, rest, queue, rfl⟩ | ⟨-, round, had, rfl⟩ | ⟨-, -, t, -, -, rfl⟩⟩ := next?_eq_some h
  · exact digest queue
  · exact turn had
  · exact wakeJobs t r

theorem run (limit : Nat) (r : Running σ) : Becomes {} r (r.run limit) := by
  fun_induction Running.run limit r with
  | case1 r h => exact refl r
  | case2 r r' h ih => exact (next? h).andThen ih

theorem elapse (limit : Nat) (r : Running σ) : Becomes {} r (r.elapse limit) :=
  (run limit r).andThen (of_eq rfl rfl rfl)

theorem receive (v : Visit) (r : Running σ) : Becomes {} r (r.receive v) := by
  have clock : Becomes {} r { r with now := max r.now v.time } := of_eq rfl rfl rfl
  rw [Running.receive]
  cases v.entry with
  | none => exact clock
  | some e => exact clock.andThen (send e _)

theorem host (deadline : Nat) (visits : List Visit) (r : Running σ) :
    Becomes {} r (r.host deadline visits) := by
  induction visits generalizing r with
  | nil => exact run deadline r
  | cons v rest ih =>
    have worked := run (min v.time deadline) r
    simp only [Running.host]
    split
    · exact (worked.andThen (receive v _)).andThen (ih _)
    · exact worked.andThen (run deadline _)

theorem shutDown (r : Running σ) : Becomes {} r r.shutDown := of_eq rfl rfl rfl

theorem drain (r : Running σ) : Becomes {} r r.drain := by
  have alone : Becomes {} r { r with jobs := [] } := of_eq rfl rfl rfl
  rw [Running.drain]
  cases hc : r.channel with
  | none => simpa [hc] using alone
  | some waiting =>
    have taken : Becomes {} _ (Running.digest waiting { r with jobs := [] }) := digest hc
    have stopped := close (backlog_digest waiting { r with jobs := [] })
    simpa [hc] using (alone.andThen taken).andThen stopped

end Becomes

end Running

end LogIntake
