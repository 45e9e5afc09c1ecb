import LogIntake.Pipeline.Chain
import LogIntake.Pipeline.Job

/-!
A pipeline at work. Entries that are sent wait in a channel until the stages behind the input take
them; the jobs have their turns; and when nothing is left to do at one time, the clock goes on to the
next. The channel has room for every entry: who would have to wait for room sends later. Times are whole
milliseconds.
-/
namespace LogIntake

structure Output where
  /-- The entries that left the last stage, with their times. -/
  left : List (Nat × Entry) := []
  journal : List String := []

structure Running (σ : Type) where
  now : Nat
  input : Option (Stage σ) := none
  /-- The stages behind the input. -/
  stages : List (Stage σ)
  /-- The entries that wait for the stages; none once nothing is accepted any more. -/
  channel : Option (List Entry) := some []
  /-- The entries that were accepted so far. -/
  accepted : List Entry := []
  jobs : List Job := []
  /-- The failures that nobody has asked for yet. -/
  failures : List Failure := []
  shuttingDown : Bool := false
  output : Output := {}

namespace Running

variable {σ : Type}

def isOpen (r : Running σ) : Bool := r.channel.isSome

def backlog (r : Running σ) : Nat := r.channel.elim 0 List.length

theorem backlog_eq_zero_iff {r : Running σ} :
    r.backlog = 0 ↔ r.channel = none ∨ r.channel = some [] := by
  rw [backlog]
  cases r.channel <;> simp

/-- Sends an entry. It is refused once nothing is accepted any more. -/
def send (e : Entry) (r : Running σ) : Bool × Running σ :=
  match r.channel with
  | some waiting =>
    (true, { r with channel := some (waiting ++ [e]), accepted := r.accepted ++ [e] })
  | none => (false, r)

/-- An entry that is answered with true is accepted, and waits behind the others. -/
theorem accepted_of_send {e : Entry} {r r' : Running σ} (sent : r.send e = (true, r')) :
    r'.accepted = r.accepted ++ [e] ∧
      ∃ waiting, r.channel = some waiting ∧ r'.channel = some (waiting ++ [e]) := by
  rw [send] at sent
  split at sent
  · next waiting opened =>
    obtain rfl := (Prod.mk.inj sent).2
    exact ⟨rfl, waiting, opened, rfl⟩
  · cases sent

/-- An entry that is answered with false changes nothing, and finds no channel. -/
theorem eq_of_send {e : Entry} {r r' : Running σ} (sent : r.send e = (false, r')) :
    r' = r ∧ r.channel = none := by
  rw [send] at sent
  split at sent
  · cases sent
  · next closed => exact ⟨(Prod.mk.inj sent).2.symm, closed⟩

def takeOutput (r : Running σ) : Output × Running σ := (r.output, { r with output := {} })

def canFail (r : Running σ) : Bool := r.isOpen || !r.jobs.isEmpty || !r.failures.isEmpty

def surroundings (r : Running σ) : Surroundings where
  now := r.now
  isOpen := r.isOpen
  shuttingDown := r.shuttingDown

def afterRound (round : Job.Round) (r : Running σ) : Running σ :=
  { r with
    jobs := round.jobs
    channel := r.channel.map (· ++ round.sent)
    accepted := r.accepted ++ round.sent
    failures := r.failures ++ round.failure.toList }

theorem backlog_afterRound_le {round : Job.Round} {r : Running σ} (h : r.backlog = 0) :
    (r.afterRound round).backlog ≤ round.sent.length := by
  rcases backlog_eq_zero_iff.1 h with hc | hc
  · simp [backlog, afterRound, hc]
  · simp [backlog, afterRound, hc]

def wakeJobs (t : Nat) (r : Running σ) : Running σ :=
  { r with now := max r.now t, jobs := r.jobs.map (Job.wake t) }

variable [Operator σ]

/-- Stops the stages behind the input, if they are at work. Nothing is accepted from then on. -/
def close (r : Running σ) : Running σ :=
  match r.channel with
  | none => r
  | some _ =>
    let q := Chain.stopAll r.stages
    { r with
      stages := q.stages
      channel := none
      output := { r.output with journal := r.output.journal ++ q.journal } }

/-- The stages take the entries that wait. A fatal error stops them. -/
def digest (waiting : List Entry) (r : Running σ) : Running σ :=
  let p := Chain.passAll waiting r.stages
  let r : Running σ :=
    { r with
      stages := p.stages
      channel := some []
      failures := r.failures ++ p.failure.toList
      output :=
        { left := r.output.left ++ p.left.map fun e => (r.now, e)
          journal := r.output.journal ++ p.journal } }
  if p.failure.isSome then r.close else r

/-- The next thing that happens before the limit: the stages come first, then the jobs, then the
clock. -/
def next? (limit : Nat) (r : Running σ) : Option (Running σ) :=
  if r.now < limit then
    match r.channel with
    | some (e :: rest) => some (r.digest (e :: rest))
    | _ =>
      match Job.round? r.surroundings r.jobs with
      | some round => some (r.afterRound round)
      | none =>
        match Job.earliest? r.jobs with
        | some t => if t < limit then some (r.wakeJobs t) else none
        | none => none
  else none

/-- A bound on what can still happen without new entries. -/
def weight (r : Running σ) : Nat := Job.totalWeight r.jobs + r.backlog

@[simp] theorem jobs_close (r : Running σ) : r.close.jobs = r.jobs := by
  rw [close]
  split <;> rfl

@[simp] theorem channel_close (r : Running σ) : r.close.channel = none := by
  rw [close]
  split
  · assumption
  · rfl

@[simp] theorem jobs_digest (waiting : List Entry) (r : Running σ) :
    (r.digest waiting).jobs = r.jobs := by
  unfold digest
  dsimp only
  split <;> simp

@[simp] theorem backlog_digest (waiting : List Entry) (r : Running σ) :
    (r.digest waiting).backlog = 0 := by
  unfold digest
  dsimp only
  split <;> simp [backlog]

/-- All that can happen next. -/
theorem next?_eq_some {limit : Nat} {r r' : Running σ} (h : r.next? limit = some r') :
    r.now < limit ∧
    ((∃ e rest, r.channel = some (e :: rest) ∧ r' = r.digest (e :: rest)) ∨
      (r.backlog = 0 ∧ ∃ round, Job.round? r.surroundings r.jobs = some round ∧
        r' = r.afterRound round) ∨
      (r.backlog = 0 ∧ Job.round? r.surroundings r.jobs = none ∧
        ∃ t, Job.earliest? r.jobs = some t ∧ t < limit ∧ r' = r.wakeJobs t)) := by
  rw [next?] at h
  split at h
  · next hnow =>
    refine ⟨hnow, ?_⟩
    split at h
    · next e rest hc => exact .inl ⟨e, rest, hc, (Option.some.inj h).symm⟩
    · next hc =>
      have hb : r.backlog = 0 := by
        rw [backlog_eq_zero_iff]
        match h : r.channel with
        | none => exact .inl rfl
        | some [] => exact .inr rfl
        | some (e :: rest) => exact absurd h (hc e rest)
      right
      split at h
      · next round hr => exact .inl ⟨hb, round, hr, (Option.some.inj h).symm⟩
      · next hr =>
        split at h
        · next t ht =>
          obtain ⟨hlt, rfl⟩ := by simpa using h
          exact .inr ⟨hb, hr, t, ht, hlt, rfl⟩
        · cases h
  · cases h

theorem weight_next?_lt {limit : Nat} {r r' : Running σ} (h : r.next? limit = some r') :
    r'.weight < r.weight := by
  obtain ⟨-, ⟨e, rest, hc, rfl⟩ | ⟨hb, round, hr, rfl⟩ | ⟨hb, -, t, ht, -, rfl⟩⟩ := next?_eq_some h
  · have hb : r.backlog = rest.length + 1 := by simp [backlog, hc]
    simp [weight, hb]
  · have hjobs := Job.totalWeight_round?_lt hr
    have hsent : (r.afterRound round).backlog ≤ round.sent.length := backlog_afterRound_le hb
    have hround : (r.afterRound round).jobs = round.jobs := rfl
    simp only [weight, hb, hround]
    omega
  · have hjobs := Job.totalWeight_map_wake_lt (Job.exists_of_earliest? ht)
    simp only [weight, wakeJobs, backlog] at *
    omega

def run (limit : Nat) (r : Running σ) : Running σ :=
  match _h : r.next? limit with
  | none => r
  | some r' => run limit r'
termination_by r.weight
decreasing_by exact weight_next?_lt _h

def elapse (limit : Nat) (r : Running σ) : Running σ :=
  let r := r.run limit
  { r with now := max r.now limit }

end Running

end LogIntake
