import LogIntake.Proofs.Pipeline.Steps

/-!
The life of a pipeline from its start to the end of its stop. Whoever sends, whichever job has its turn
and however much time passes: the stages handle what was accepted as one row, in the order of the
channel, up to the end or to an entry that breaks one of them.
-/
namespace LogIntake

namespace Running

variable {σ : Type} [Operator σ]

/-! ### Where a pipeline can come to -/

/-- The input of a pipeline does not start. The stages behind it have started, and their tasks and those
that the input leaves behind are there until the pipeline is rolled back. -/
inductive FailsToStart (now : Nat) : List (Stage σ) → Failure → Running σ → Prop
  | input {s : Stage σ} {stages : List (Stage σ)} {cause : Failure} (isInput : s.capability = .input)
      (behind : (Chain.startAll stages).failure = none)
      (failed : (Operator.start s.operator).outcome = .error cause) :
      FailsToStart now (s :: stages) (Chain.notStarted s.id cause)
        { now
          input := some { s with operator := (Operator.start s.operator).operator }
          stages := (Chain.startAll stages).stages
          jobs := (Chain.startAll stages).jobs ++ Job.spawnAll s.id (Operator.start s.operator).tasks
          output := { journal := (Chain.startAll stages).journal ++ (Operator.start s.operator).journal } }

/-- The states that a pipeline comes to before it is stopped, with the failures that were asked for
meanwhile. Senders, stages, jobs and the clock have their turns in any order. -/
inductive Reaches (r₀ : Running σ) : List Failure → Running σ → Prop
  | start : Reaches r₀ [] r₀
  | send {asked : List Failure} {r : Running σ} (e : Entry) (before : Reaches r₀ asked r) :
      Reaches r₀ asked (r.send e).2
  | take {asked : List Failure} {r : Running σ} {front back : List Entry}
      (queue : r.channel = some (front ++ back)) (before : Reaches r₀ asked r) :
      Reaches r₀ asked (r.take front back)
  | turn {asked : List Failure} {r : Running σ} {jobs : List Job} {round : Job.Round}
      (order : jobs.Perm r.jobs) (had : Job.round? r.surroundings jobs = some round)
      (before : Reaches r₀ asked r) : Reaches r₀ asked (r.afterRound round)
  | wake {asked : List Failure} {r : Running σ} (time : Nat) (before : Reaches r₀ asked r) :
      Reaches r₀ asked (r.wakeJobs time)
  | wait {asked : List Failure} {r : Running σ} (time : Nat) (before : Reaches r₀ asked r) :
      Reaches r₀ asked { r with now := max r.now time }
  | ask {asked rest : List Failure} {r : Running σ} {f : Failure} (first : r.failures = f :: rest)
      (before : Reaches r₀ asked r) : Reaches r₀ (asked ++ [f]) { r with failures := rest }

namespace Reaches

variable {r₀ r : Running σ} {asked : List Failure}

theorem next? {limit : Nat} {r' : Running σ} (before : Reaches r₀ asked r)
    (h : r.next? limit = some r') : Reaches r₀ asked r' := by
  obtain ⟨-, ⟨e, rest, queue, rfl⟩ | ⟨-, round, had, rfl⟩ | ⟨-, -, t, -, -, rfl⟩⟩ := next?_eq_some h
  · rw [← take_nil]
    exact take (by rw [queue, List.append_nil]) before
  · exact turn (List.Perm.refl _) had before
  · exact wake t before

/-- The order in which things happen by themselves is one of all orders. -/
theorem elapse (limit : Nat) (before : Reaches r₀ asked r) : Reaches r₀ asked (r.elapse limit) := by
  have worked : Reaches r₀ asked (r.run limit) := by
    fun_induction Running.run limit r with
    | case1 r h => exact before
    | case2 r r' h ih => exact ih (next? before h)
  exact wait limit worked

theorem becomes (history : Reaches r₀ asked r) : Becomes ⟨[], [], [], asked⟩ r₀ r := by
  induction history with
  | start => exact .refl r₀
  | send e before ih => exact ih.andThen (.send e _)
  | take queue before ih => exact ih.andThen (.take queue)
  | turn order had before ih => exact ih.andThen (.turn had)
  | wake time before ih => exact ih.andThen (.wakeJobs time _)
  | wait time before ih => exact ih.andThen (.of_eq rfl rfl rfl)
  | @ask asked rest r f first before ih =>
    have asking : Becomes ⟨[], [], [], [f]⟩ r { r with failures := rest } := by
      refine ⟨{}, ?_, .refl _ _⟩
      simp [yield, first, Yield.mk_append_mk, Running.left]
    exact ih.trans asking

/-- Only a broken stage closes a pipeline that nobody stops. -/
theorem ofStage_of_closed (opened : r₀.channel ≠ none) (history : Reaches r₀ asked r)
    (closed : r.channel = none) : ∃ f ∈ asked ++ r.failures, Chain.OfStage f := by
  induction history with
  | start => exact absurd closed opened
  | @send asked r e before ih =>
    cases hc : r.channel with
    | none => simpa [Running.send, hc] using ih hc
    | some waiting => simp [Running.send, hc] at closed
  | @take asked r front back queue before ih =>
    cases hp : Chain.passAll front r.stages with
    | mk last journal left failure =>
      cases failure with
      | none => simp [Running.take, Running.digest, hp] at closed
      | some f =>
        obtain ⟨hf, -⟩ | ⟨id, cause, hf, -⟩ := Chain.cases_of_passAll_eq hp
        · cases hf
        · refine ⟨f, ?_, id, cause, Option.some.inj hf⟩
          simp [Running.take, Running.digest, Running.close, hp]
  | @turn asked r jobs round order had before ih =>
    obtain ⟨f, hf, stage⟩ := ih (by simpa [Running.afterRound] using closed)
    refine ⟨f, ?_, stage⟩
    simp only [Running.afterRound, ← List.append_assoc]
    exact List.mem_append_left _ hf
  | wake time before ih => exact ih closed
  | wait time before ih => exact ih closed
  | ask first before ih => simpa [first] using ih closed

end Reaches

/-! ### What it has done there -/

/-- The pipeline accepts entries. The stages have handled those in front, and the others wait. -/
def IsAtWork (r r₀ : Running σ) (asked : List Failure) : Prop :=
  ∃ handled waiting journal, r.channel = some waiting ∧ r.accepted = handled ++ waiting ∧
    Chain.Handles handled r₀.stages r.stages journal r.left ∧
    r.output.journal = r₀.output.journal ++ journal ∧
    Chain.Reports none (asked ++ r.failures)

/-- The stages have written a journal since the start, and at one place in it the input some notes. -/
def HasWritten (r r₀ : Running σ) (notes journal : List String) : Prop :=
  ∃ before behind, journal = before ++ behind ∧
    r.output.journal = r₀.output.journal ++ before ++ notes ++ behind

def HasFinished (r r₀ : Running σ) (asked : List Failure) (notes : List String) : Prop :=
  ∃ stages journal, r.channel = none ∧ Chain.Handles r.accepted r₀.stages stages journal r.left ∧
    r.stages = (Chain.stopAll stages).stages ∧
    r.HasWritten r₀ notes (journal ++ (Chain.stopAll stages).journal) ∧
    Chain.Reports none (asked ++ r.failures)

/-- An entry broke a stage. Those before it were handled, those behind it were not; the stages were
stopped, and the failure of that stage is the only one of a stage. -/
def HasBrokenDown (r r₀ : Running σ) (asked : List Failure) (notes : List String) : Prop :=
  ∃ stages journal id cause, r.channel = none ∧
    Chain.BreaksDown r.accepted r₀.stages stages journal r.left id cause ∧
    r.stages = (Chain.stopAll stages).stages ∧
    r.HasWritten r₀ notes (journal ++ (Chain.stopAll stages).journal) ∧
    Chain.Reports (some (Chain.broken id cause)) (asked ++ r.failures)

/-- Nothing has come in or gone out yet. -/
structure IsFresh (r : Running σ) : Prop where
  channel : r.channel = some []
  accepted : r.accepted = []
  left : r.left = []
  failures : r.failures = []

theorem isFresh_of_start {now : Nat} {pipeline : List (Stage σ)} {r : Running σ}
    (h : start now pipeline = .ok r) : r.IsFresh := by
  obtain ⟨-, ⟨-, rfl⟩ | ⟨s, -, -, rfl⟩⟩ := start_eq_ok h
  · exact ⟨rfl, rfl, rfl, rfl⟩
  · exact ⟨rfl, rfl, rfl, rfl⟩

theorem FailsToStart.isFresh {now : Nat} {pipeline : List (Stage σ)} {cause : Failure} {r : Running σ}
    (h : FailsToStart now pipeline cause r) : r.IsFresh := by
  cases h with
  | input isInput behind failed => exact ⟨rfl, rfl, rfl, rfl⟩

variable {r₀ r : Running σ} {asked : List Failure}

theorem finished_or_brokenDown {y : Yield} {notes : List String} (fresh : r₀.IsFresh)
    (works : Chain.Works r₀.stages r₀.channel y r.stages r.channel) (closed : r.channel = none)
    (accepted : r.accepted = y.accepted) (left : r.left = y.left)
    (written : r.HasWritten r₀ notes y.journal) (failures : asked ++ r.failures = y.failures) :
    r.HasFinished r₀ asked notes ∨ r.HasBrokenDown r₀ asked notes := by
  rw [fresh.channel, closed] at works
  obtain ⟨last, journal, fatal, passed, stopped, wrote, reports⟩ := works.ended
  rw [List.nil_append, ← accepted, ← left] at passed
  rw [wrote] at written
  rw [← failures] at reports
  obtain ⟨rfl, handles⟩ | ⟨id, cause, rfl, breaks⟩ := Chain.cases_of_passAll_eq passed
  · exact .inl ⟨last, journal, closed, handles, stopped, written, reports⟩
  · exact .inr ⟨last, journal, id, cause, closed, breaks, stopped, written, reports⟩

theorem Reaches.account (fresh : r₀.IsFresh) (history : Reaches r₀ asked r) :
    ∃ y, Chain.Works r₀.stages r₀.channel y r.stages r.channel ∧ r.accepted = y.accepted ∧
      r.left = y.left ∧ r.output.journal = r₀.output.journal ++ y.journal ∧
      asked ++ r.failures = y.failures := by
  obtain ⟨y, yields, works⟩ := history.becomes
  have accepted : r.accepted = y.accepted := by
    simpa [yield, fresh.accepted] using congrArg Yield.accepted yields
  have left : r.left = y.left := by
    simpa [yield, fresh.left] using congrArg Yield.left yields
  have journal : r.output.journal = r₀.output.journal ++ y.journal := by
    simpa [yield] using congrArg Yield.journal yields
  have failures : asked ++ r.failures = y.failures := by
    simpa [yield, fresh.failures] using congrArg Yield.failures yields
  exact ⟨y, works, accepted, left, journal, failures⟩

/-- As long as nobody stops it, a pipeline is at work or has broken down. -/
theorem Reaches.atWork_or_brokenDown (fresh : r₀.IsFresh) (history : Reaches r₀ asked r) :
    r.IsAtWork r₀ asked ∨ r.HasBrokenDown r₀ asked [] := by
  obtain ⟨y, works, accepted, left, journal, failures⟩ := history.account fresh
  cases hc : r.channel with
  | none =>
    have written : r.HasWritten r₀ [] y.journal := ⟨y.journal, [], by simp, by simp [journal]⟩
    have either := finished_or_brokenDown fresh works hc accepted left written failures
    refine .inr (either.resolve_left fun ⟨_, _, _, _, _, _, reports⟩ => ?_)
    obtain ⟨f, hf, stage⟩ := history.ofStage_of_closed (by simp [fresh.channel]) hc
    exact Chain.reports_none_iff.1 reports f hf stage
  | some waiting =>
    rw [fresh.channel, hc] at works
    obtain ⟨handled, queue, passed, reports⟩ := works.wentOn
    rw [List.nil_append, ← accepted] at queue
    rw [← left] at passed
    rw [← failures] at reports
    obtain ⟨-, handles⟩ | ⟨_, _, broke, -⟩ := Chain.cases_of_passAll_eq passed
    · exact .inl ⟨handled, waiting, y.journal, hc, queue, handles, journal, reports⟩
    · cases broke

theorem Becomes.rests {more : List Failure} {s : Running σ} (closed : r.channel = none)
    (later : Becomes ⟨[], [], [], more⟩ r s) : s.channel = none ∧ s.accepted = r.accepted ∧
      s.stages = r.stages ∧ s.left = r.left ∧ s.output.journal = r.output.journal := by
  obtain ⟨y, yields, works⟩ := later
  rw [closed] at works
  obtain ⟨stages, channel, failures, rfl⟩ := works.rested
  have accepted : s.accepted = r.accepted := by simpa [yield] using congrArg Yield.accepted yields
  have left : s.left = r.left := by simpa [yield] using congrArg Yield.left yields
  have journal : s.output.journal = r.output.journal := by
    simpa [yield] using congrArg Yield.journal yields
  exact ⟨channel, accepted, stages, left, journal⟩

/-! ### The end -/

theorem channel_drain (r : Running σ) : r.drain.channel = none := by
  rw [drain]
  cases hc : r.channel with
  | none => rfl
  | some waiting => exact channel_close _

theorem jobs_drain (r : Running σ) : r.drain.jobs = [] := by
  rw [drain]
  cases hc : r.channel with
  | none => rfl
  | some waiting => simp

theorem run_of_closed (closed : r.channel = none) (idle : r.jobs = []) (limit : Nat) : r.run limit = r := by
  have quiet : r.next? limit = none := by simp [next?, closed, idle, Job.round?, Job.earliest?]
  rw [run]
  split
  · rfl
  · next r' next => cases quiet.symm.trans next

/-- Nothing is left behind of a pipeline that was stopped. -/
theorem outlive_halt (timeout : Nat) (senderHeld : Bool) (visits : List Visit) (r : Running σ) (limit : Nat) :
    (r.halt timeout senderHeld visits).2.outlive limit senderHeld visits =
      (r.halt timeout senderHeld visits).2 := by
  have closed : (r.halt timeout senderHeld visits).2.channel = none := channel_drain _
  have idle : (r.halt timeout senderHeld visits).2.jobs = [] := jobs_drain _
  generalize (r.halt timeout senderHeld visits).2 = last at closed idle ⊢
  have rests : last.host limit visits = last := by
    cases visits with
    | nil => exact run_of_closed closed idle limit
    | cons v rest => simp [host, run_of_closed closed idle, isOpen, closed, idle]
  have alone : ({ last with jobs := [] } : Running σ) = last := by rw [← idle]
  have drained : last.drain = last := by simpa only [drain, closed] using alone
  rw [outlive, rests, drained, ite_self]

theorem haltWithin_of_endsOnClock {timeout : Span} (onClock : timeout.endsOnClock r.now = true)
    (senderHeld : Bool) (visits : List Visit) :
    r.haltWithin timeout senderHeld visits = r.halt timeout.ceilMilliseconds senderHeld visits :=
  if_pos onClock

theorem becomes_halt (timeout : Nat) (senderHeld : Bool) (visits : List Visit) (r : Running σ) :
    Becomes {} r.stopInput.2 (r.halt timeout senderHeld visits).2 := by
  have hosted := (Becomes.shutDown r.stopInput.2).andThen (.host (r.now + timeout) visits _)
  have clock : Becomes {} (r.stopInput.2.shutDown.host (r.now + timeout) visits)
      { r.stopInput.2.shutDown.host (r.now + timeout) visits with
        now := (r.stopInput.2.shutDown.host (r.now + timeout) visits).overAt (r.now + timeout)
          senderHeld } := .of_eq rfl rfl rfl
  exact (hosted.andThen clock).andThen (.drain _)

theorem halted (fresh : r₀.IsFresh) (history : r₀.Reaches asked r) (timeout : Nat)
    (senderHeld : Bool) (visits : List Visit) :
    ∃ notes, r.stopInput.2.output.journal = r.output.journal ++ notes ∧
      ((r.halt timeout senderHeld visits).2.HasFinished r₀ asked notes ∨
        (r.halt timeout senderHeld visits).2.HasBrokenDown r₀ asked notes) := by
  obtain ⟨y, works, accepted, left, journal, failures⟩ := history.account fresh
  obtain ⟨notes, noted⟩ := journal_stopInput r
  obtain ⟨z, yields, more⟩ := becomes_halt timeout senderHeld visits r
  have closed : (r.halt timeout senderHeld visits).2.channel = none := channel_drain _
  generalize (r.halt timeout senderHeld visits).2 = last at yields more closed ⊢
  rw [stages_stopInput, channel_stopInput] at more
  have accepted' : last.accepted = (y ++ z).accepted := by
    simpa [yield, accepted] using congrArg Yield.accepted yields
  have left' : last.left = (y ++ z).left := by
    have before : r.stopInput.2.left = y.left := by simpa [Running.left] using left
    simpa [yield, before] using congrArg Yield.left yields
  have failures' : asked ++ last.failures = (y ++ z).failures := by
    have after : last.failures = r.failures ++ z.failures := by
      simpa [yield] using congrArg Yield.failures yields
    rw [after, ← List.append_assoc, failures, Yield.failures_append]
  -- the notes of the input stand where its stop divides the journal of the stages
  have written : last.HasWritten r₀ notes (y ++ z).journal := by
    refine ⟨y.journal, z.journal, rfl, ?_⟩
    simpa [yield, noted, journal] using congrArg Yield.journal yields
  exact ⟨notes, noted,
    finished_or_brokenDown fresh (works.trans more) closed accepted' left' written failures'⟩

/-- The stages handle what the pipeline accepts one entry after another, in the order of the channel.
Until it is stopped, what they have handled is the front of it, or an entry has broken one of them;
then nothing is accepted or handled any more. Once it is stopped, they have handled all of it, or all
before the entry that broke one of them, however the stop came to its end. -/
theorem stop_handles_accepted {now : Nat} {pipeline : List (Stage σ)}
    (started : start now pipeline = .ok r₀) (history : r₀.Reaches asked r) (timeout : Nat)
    (senderHeld : Bool) (visits : List Visit) :
    let last := (r.halt timeout senderHeld visits).2
    (r.IsAtWork r₀ asked ∨ r.HasBrokenDown r₀ asked []) ∧
    (r.HasBrokenDown r₀ asked [] →
      (∀ more s, r.Reaches more s → (∀ e, s.send e = (false, s)) ∧ s.accepted = r.accepted ∧
        s.stages = r.stages ∧ s.left = r.left ∧ s.output.journal = r.output.journal) ∧
      last.accepted = r.accepted ∧ last.stages = r.stages ∧ last.left = r.left) ∧
    (∃ notes, r.stopInput.2.output.journal = r.output.journal ++ notes ∧
      (last.HasFinished r₀ asked notes ∨ last.HasBrokenDown r₀ asked notes)) ∧
    (r.stop timeout senderHeld visits).output = last.output := by
  have fresh := isFresh_of_start started
  refine ⟨history.atWork_or_brokenDown fresh, ?_, halted fresh history timeout senderHeld visits, rfl⟩
  rintro ⟨_, _, _, _, closed, -⟩
  constructor
  · intro more s later
    obtain ⟨channel, rest⟩ := later.becomes.rests closed
    have refused : ∀ e, s.send e = (false, s) := by
      intro e
      simp [send, channel]
    exact ⟨refused, rest⟩
  · have stopped : r.stopInput.2.channel = none := by rw [channel_stopInput, closed]
    obtain ⟨-, accepted, stages, left, -⟩ := (becomes_halt timeout senderHeld visits r).rests stopped
    rw [accepted_stopInput] at accepted
    rw [stages_stopInput] at stages
    rw [Running.left, Running.left, left_stopInput] at left
    exact ⟨accepted, stages, left⟩

end Running

/-- An operator that lets some entries go by and then breaks. -/
structure Fuse where
  room : Nat

namespace Fuse

instance : Operator Fuse where
  process e s :=
    match s.room with
    | 0 => { operator := s, outcome := .error (.fatal ⟨"burnt out", []⟩) }
    | room + 1 => { operator := ⟨room⟩, outcome := .ok (some e) }

def lit : Running Fuse := { now := 0, stages := [⟨"fuse", "fuse", .intermediate, ⟨1⟩⟩] }

def burnt : Running Fuse := ((lit.send {}).2.send { severity := .error }).2.elapse 5

theorem burnt_stop_handles_accepted :
    Running.start 0 lit.stages = .ok lit ∧ lit.Reaches [] burnt ∧
    (burnt.IsAtWork lit [] ∨ burnt.HasBrokenDown lit [] []) ∧
    ∃ notes, burnt.stopInput.2.output.journal = burnt.output.journal ++ notes ∧
      ((burnt.halt 10 true []).2.HasFinished lit [] notes ∨
        (burnt.halt 10 true []).2.HasBrokenDown lit [] notes) := by
  have started : Running.start 0 lit.stages = .ok lit := rfl
  have history : lit.Reaches [] burnt :=
    .elapse 5 (.send { severity := .error } (.send {} .start))
  obtain ⟨before, -, ended, -⟩ := Running.stop_handles_accepted started history 10 true []
  exact ⟨started, history, before, ended⟩

end Fuse

end LogIntake
