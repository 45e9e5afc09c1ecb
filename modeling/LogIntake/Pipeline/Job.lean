import LogIntake.Operator.Basic

/-!
The tasks of operators at work. A task whose turn has come goes on until it has to wait or has sent
as much as one turn allows. Times are whole milliseconds.
-/
namespace LogIntake

/-- A bound on how much a task still does. -/
def Task.size : Task → Nat
  | .finish _ => 1
  | .send _ next => (next true).size + (next false).size + 1
  | .sleep _ next => next.size + 1
  | .awaitShutdown next => next.size + 1

theorem Task.size_pos (t : Task) : 0 < t.size := by cases t <;> simp only [size] <;> omega

namespace Job

inductive State where
  /-- Goes on when its turn comes. -/
  | ready (task : Task)
  | asleep (wakeAt : Nat) (task : Task)
  /-- Goes on when the pipeline shuts down. -/
  | waiting (task : Task)
  | ended (result : Except Failure Unit)
deriving Inhabited

def State.weight : State → Nat
  | ready t => 2 * t.size
  | asleep _ t => 2 * t.size + 1
  | waiting t => 2 * t.size + 1
  | ended _ => 0

end Job

/-- What a task sees of the pipeline. -/
structure Surroundings where
  now : Nat
  /-- Whether entries are accepted. -/
  isOpen : Bool
  shuttingDown : Bool

/-- What a task did in its turn: the entries that were accepted, and what it does next. -/
structure Turn where
  sent : List Entry := []
  state : Job.State

def sendsPerTurn : Nat := 128

namespace Task

/-- A turn in which the task may still send so many entries. -/
def turn (around : Surroundings) : Nat → Task → Turn
  | _, .finish result => { state := .ended result }
  | 0, .send e next => { state := .ready (.send e next) }
  | room + 1, .send e next =>
    if around.isOpen then
      let t := (next true).turn around room
      { t with sent := e :: t.sent }
    else (next false).turn around room
  | _, .sleep milliseconds next => { state := .asleep (around.now + milliseconds) next }
  | room, .awaitShutdown next =>
    if around.shuttingDown then next.turn around room else { state := .waiting next }

theorem weight_turn_le (around : Surroundings) (room : Nat) (t : Task) :
    (t.turn around room).sent.length + (t.turn around room).state.weight ≤ 2 * t.size := by
  induction t generalizing room with
  | finish result => simp [turn, Job.State.weight]
  | send e next ih =>
    have := ih true (room - 1)
    have := ih false (room - 1)
    cases room with
    | zero => simp [turn, Job.State.weight]
    | succ room =>
      simp only [turn, size, Nat.add_sub_cancel] at *
      split
      · simp only [List.length_cons]
        omega
      · omega
  | sleep milliseconds next => simp only [turn, Job.State.weight, size, List.length_nil]; omega
  | awaitShutdown next ih =>
    have := ih room
    simp only [turn, size]
    split
    · omega
    · simp only [Job.State.weight, List.length_nil]; omega

/-- A turn in which something can be sent is not wasted. -/
theorem weight_turn_lt (around : Surroundings) (room : Nat) (t : Task) :
    (t.turn around (room + 1)).sent.length + (t.turn around (room + 1)).state.weight <
      2 * t.size := by
  cases t with
  | finish result => simp [turn, Job.State.weight, size]
  | send e next =>
    have := (next true).weight_turn_le around room
    have := (next false).weight_turn_le around room
    have := (next true).size_pos
    have := (next false).size_pos
    simp only [turn, size] at *
    split
    · simp only [List.length_cons]
      omega
    · omega
  | sleep milliseconds next => simp only [turn, Job.State.weight, size, List.length_nil]; omega
  | awaitShutdown next =>
    have := next.weight_turn_le around (room + 1)
    simp only [turn, size]
    split
    · omega
    · simp only [Job.State.weight, List.length_nil]; omega

end Task

structure Job where
  /-- The id of the operator. -/
  owner : String
  state : Job.State

namespace Job

/-- The jobs that an operator leaves behind when it starts. -/
def spawnAll (owner : String) (tasks : List Task) : List Job :=
  tasks.map fun t => { owner, state := .ready t }

def broken (owner : String) (cause : Failure) : Failure :=
  cause.context ("task of operator '" ++ owner ++ "' failed")

/-- A waiting job goes on once the pipeline shuts down. -/
def shutDown (j : Job) : Job :=
  match j.state with
  | .waiting t => { j with state := .ready t }
  | _ => j

def wake (now : Nat) (j : Job) : Job :=
  match j.state with
  | .asleep wakeAt t => if wakeAt ≤ now then { j with state := .ready t } else j
  | _ => j

def wakeAt? (j : Job) : Option Nat :=
  match j.state with
  | .asleep wakeAt _ => some wakeAt
  | _ => none

def weight (j : Job) : Nat := j.state.weight

def totalWeight : List Job → Nat
  | [] => 0
  | j :: rest => j.weight + totalWeight rest

theorem totalWeight_append (front back : List Job) :
    totalWeight (front ++ back) = totalWeight front + totalWeight back := by
  induction front with
  | nil => simp [totalWeight]
  | cons j rest ih => simp only [List.cons_append, totalWeight, ih, Nat.add_assoc]

theorem weight_wake_le (now : Nat) (j : Job) : (j.wake now).weight ≤ j.weight := by
  rw [wake]
  split
  · split
    · simp [weight, State.weight, *]
    · exact Nat.le_refl _
  · exact Nat.le_refl _

theorem weight_wake_lt {now : Nat} {j : Job} (h : j.wakeAt? = some now) :
    (j.wake now).weight < j.weight := by
  rw [wakeAt?] at h
  split at h
  · next hs =>
    obtain rfl := Option.some.inj h
    simp [wake, weight, State.weight, hs]
  · simp at h

/-- The first time at which one of the jobs wakes up. -/
def earliest? : List Job → Option Nat
  | [] => none
  | j :: rest =>
    match j.wakeAt?, earliest? rest with
    | some t, some u => some (min t u)
    | some t, none => some t
    | none, u => u

theorem exists_of_earliest? {jobs : List Job} {t : Nat} (h : earliest? jobs = some t) :
    ∃ j ∈ jobs, j.wakeAt? = some t := by
  induction jobs generalizing t with
  | nil => simp [earliest?] at h
  | cons j rest ih =>
    rw [earliest?] at h
    split at h
    · next a b ha hb =>
      obtain rfl := Option.some.inj h
      rcases Nat.le_total a b with hab | hab
      · exact ⟨j, by simp, by rw [ha, Nat.min_eq_left hab]⟩
      · obtain ⟨k, hk, hw⟩ := ih hb
        exact ⟨k, by simp [hk], by rw [hw, Nat.min_eq_right hab]⟩
    · next ha hb => exact ⟨j, by simp, ha.trans h⟩
    · next hb =>
      obtain ⟨k, hk, hw⟩ := ih h
      exact ⟨k, by simp [hk], hw⟩

theorem totalWeight_map_wake_le (now : Nat) (jobs : List Job) :
    totalWeight (jobs.map (wake now)) ≤ totalWeight jobs := by
  induction jobs with
  | nil => simp [totalWeight]
  | cons j rest ih =>
    have := weight_wake_le now j
    simp only [totalWeight, List.map_cons] at *
    omega

theorem totalWeight_map_wake_lt {now : Nat} {jobs : List Job}
    (h : ∃ j ∈ jobs, j.wakeAt? = some now) :
    totalWeight (jobs.map (wake now)) < totalWeight jobs := by
  induction jobs with
  | nil => simp at h
  | cons j rest ih =>
    have := totalWeight_map_wake_le now rest
    have := weight_wake_le now j
    obtain ⟨k, hk, hw⟩ := h
    simp only [totalWeight, List.map_cons] at *
    rcases List.mem_cons.1 hk with rfl | hk
    · have := weight_wake_lt hw
      omega
    · have := ih ⟨k, hk, hw⟩
      omega

/-- What became of the jobs in one turn: the entries that were accepted, and a failure if a job
ended with one. -/
structure Round where
  sent : List Entry := []
  failure : Option Failure := none
  jobs : List Job

def after (owner : String) : State → List Job
  | .ended _ => []
  | state => [{ owner, state }]

def failure? (owner : String) : State → Option Failure
  | .ended (.error cause) => some (broken owner cause)
  | _ => none

/-- The first job that is ready has its turn. -/
def round? (around : Surroundings) : List Job → Option Round
  | [] => none
  | j :: rest =>
    match j.state with
    | .ready task =>
      let t := task.turn around sendsPerTurn
      some { sent := t.sent, failure := failure? j.owner t.state, jobs := after j.owner t.state ++ rest }
    | _ => (round? around rest).map fun r => { r with jobs := j :: r.jobs }

theorem totalWeight_after_le (owner : String) (s : State) : totalWeight (after owner s) ≤ s.weight := by
  cases s <;> simp [after, totalWeight, weight, State.weight]

theorem round?_eq_some {around : Surroundings} {jobs : List Job} {r : Round}
    (h : round? around jobs = some r) :
    ∃ front owner task back, jobs = front ++ ⟨owner, .ready task⟩ :: back ∧
      r = { sent := (task.turn around sendsPerTurn).sent
            failure := failure? owner (task.turn around sendsPerTurn).state
            jobs := front ++ (after owner (task.turn around sendsPerTurn).state ++ back) } := by
  induction jobs generalizing r with
  | nil => cases h
  | cons j rest ih =>
    rw [round?] at h
    split at h
    · next task hs =>
      have hj : j = ⟨j.owner, .ready task⟩ := by rw [← hs]
      exact ⟨[], j.owner, task, rest, by rw [← hj, List.nil_append], (Option.some.inj h).symm⟩
    · obtain ⟨q, hq, rfl⟩ := Option.map_eq_some_iff.1 h
      obtain ⟨front, owner, task, back, rfl, rfl⟩ := ih hq
      exact ⟨j :: front, owner, task, back, rfl, rfl⟩

theorem totalWeight_round?_lt {around : Surroundings} {jobs : List Job} {r : Round}
    (h : round? around jobs = some r) : r.sent.length + totalWeight r.jobs < totalWeight jobs := by
  obtain ⟨front, owner, task, back, rfl, rfl⟩ := round?_eq_some h
  have hturn : (task.turn around sendsPerTurn).sent.length +
      (task.turn around sendsPerTurn).state.weight < 2 * task.size := task.weight_turn_lt around 127
  have hafter := totalWeight_after_le owner (task.turn around sendsPerTurn).state
  simp only [totalWeight_append, totalWeight, weight, State.weight]
  omega

end Job

end LogIntake
