import LogIntake.Http.Input
import Mathlib.Data.List.DropRight

/-!
The life of the server behind an input. Starts, stops and ends of the server's task come in any order: at
any time there is one task or none, and the state tells which and whether the task was told to end.
-/
namespace LogIntake.Http.Input

inductive Deed where
  | start (outcome : Except Failure Unit)
  | stop
  /-- The task of a server ends. -/
  | ended (result : Except Failure Unit)

def Deed.opens : Deed → Bool
  | start (.ok ()) => true
  | _ => false

/-- What has happened since the last start that succeeded. -/
def since (deeds : List Deed) : List Deed := deeds.rtakeWhile fun d => !d.opens

theorem since_of_opens {d : Deed} (opens : d.opens = true) (deeds : List Deed) :
    since (deeds ++ [d]) = [] := by
  rw [since, List.rtakeWhile_concat, opens]
  rfl

theorem since_of_not_opens {d : Deed} (other : d.opens = false) (deeds : List Deed) :
    since (deeds ++ [d]) = since deeds ++ [d] := by
  rw [since, List.rtakeWhile_concat, other]
  rfl

/-- What has happened to a new input, what it is after that, and how many tasks of servers have been left
behind and have not ended. -/
inductive Serves (new : Input) : List Deed → Input → Nat → Prop
  | unused : Serves new [] new 0
  | start {deeds : List Deed} {i : Input} {live : Nat} (bind : Except SystemFault Unit)
      (before : Serves new deeds i live) :
      Serves new (deeds ++ [.start (i.launch bind).outcome]) (i.launch bind).operator
        (live + (i.launch bind).tasks.length)
  | stop {deeds : List Deed} {i : Input} {live : Nat} (before : Serves new deeds i live) :
      Serves new (deeds ++ [.stop]) (Operator.stop i).operator live
  | ended {deeds : List Deed} {i : Input} {live : Nat} (served : Except Failure Unit)
      (before : Serves new deeds i (live + 1)) :
      Serves new (deeds ++ [.ended (taskResult served)]) i.taskEnded live

/-! ### One call -/

theorem launch_cases (bind : Except SystemFault Unit) (i : Input) :
    (i.state = .stopped ∧ bind = .ok () ∧ i.launch bind =
      { operator := { i with state := .running, canShutDown := true, bound := true }
        tasks := [idleTask] }) ∨
    (¬ (i.state = .stopped ∧ bind = .ok ()) ∧
      ∃ cause, i.launch bind = { operator := i, outcome := .error cause }) := by
  by_cases stopped : i.state = .stopped
  · cases bind with
    | ok _ => exact .inl ⟨stopped, rfl, by simp [launch, Input.start, stopped]⟩
    | error fault => exact .inr ⟨by simp, _, by simp only [launch, Input.start, stopped]; rfl⟩
  · exact .inr ⟨fun h => stopped h.1, _, by simp only [launch, Input.start, if_pos stopped]; rfl⟩

theorem stop_of_held {i : Input} (held : i.canShutDown = true) :
    i.stop = ({ i with state := if i.state = .running then .stopping else i.state
                       canShutDown := false }, true) := by
  rw [Input.stop, if_pos held]

theorem stop_of_released {i : Input} (released : i.canShutDown = false) : i.stop = (i, false) := by
  simp [Input.stop, released]

/-! ### Any history -/

/-- How the state goes with what has happened and with the tasks that have not ended. A server that has
ended by itself may leave the means to shut it down; one that was told to end never does. -/
structure Standing (deeds : List Deed) (i : Input) (live : Nat) : Prop where
  settled : i.state ≠ .starting
  live : live = if i.state = .stopped then 0 else 1
  running : i.state = .running → Deed.stop ∉ since deeds ∧ i.canShutDown = true
  stopping : i.state = .stopping → Deed.stop ∈ since deeds
  released : Deed.stop ∈ since deeds → i.canShutDown = false

namespace Standing

variable {deeds : List Deed} {i : Input} {live : Nat}

theorem ofSettings {id : String} {s : InputSettings} (made : ofSettings id s = .ok i) :
    Standing [] i 0 := by
  rw [Input.ofSettings] at made
  split at made
  · cases made
  · split at made
    · cases made
    · cases made
      exact ⟨nofun, rfl, nofun, nofun, nofun⟩

/-- A deed that is neither a start that succeeds nor a stop, and leaves the input as it is. -/
theorem onward (h : Standing deeds i live) {d : Deed} (other : d.opens = false) (noStop : d ≠ .stop) :
    Standing (deeds ++ [d]) i live := by
  have stops : Deed.stop ∈ since (deeds ++ [d]) ↔ Deed.stop ∈ since deeds := by
    rw [since_of_not_opens other, List.mem_append, List.mem_singleton]
    exact or_iff_left fun is => noStop is.symm
  exact
    { settled := h.settled
      live := h.live
      running := fun state => ⟨(h.running state).1 ∘ stops.1, (h.running state).2⟩
      stopping := fun state => stops.2 (h.stopping state)
      released := fun told => h.released (stops.1 told) }

theorem start (h : Standing deeds i live) (bind : Except SystemFault Unit) :
    Standing (deeds ++ [.start (i.launch bind).outcome]) (i.launch bind).operator
      (live + (i.launch bind).tasks.length) := by
  obtain ⟨stopped, -, opened⟩ | ⟨-, cause, refused⟩ := launch_cases bind i
  · have none_live : live = 0 := by rw [h.live, if_pos stopped]
    have fresh : since (deeds ++ [.start (.ok ())]) = [] := since_of_opens rfl deeds
    rw [opened, none_live]
    exact ⟨nofun, rfl, fun _ => ⟨by simp [fresh], rfl⟩, nofun, by simp [fresh]⟩
  · rw [refused]
    exact h.onward rfl nofun

theorem stop (h : Standing deeds i live) :
    Standing (deeds ++ [.stop]) (Operator.stop i).operator live := by
  have told : Deed.stop ∈ since (deeds ++ [.stop]) := by
    rw [since_of_not_opens rfl]
    exact List.mem_append_right _ List.mem_cons_self
  show Standing (deeds ++ [.stop]) i.stop.1 live
  cases held : i.canShutDown with
  | false =>
    -- a server that runs could be told to stop, so none does
    rw [stop_of_released held]
    have idle : i.state ≠ .running := fun state => by
      cases held.symm.trans (h.running state).2
    exact ⟨h.settled, h.live, fun state => absurd state idle, fun _ => told, fun _ => held⟩
  | true =>
    rw [stop_of_held held]
    by_cases running : i.state = .running
    · have one : live = 1 := by rw [h.live, running]; rfl
      simp only [if_pos running]
      exact ⟨nofun, one, nofun, fun _ => told, fun _ => rfl⟩
    · simp only [if_neg running]
      exact ⟨h.settled, h.live, fun state => absurd state running, fun _ => told, fun _ => rfl⟩

theorem ended (h : Standing deeds i (live + 1)) (result : Except Failure Unit) :
    Standing (deeds ++ [.ended result]) i.taskEnded live := by
  have last : live = 0 := by
    have := h.live
    split at this <;> omega
  have same := h.onward (d := .ended result) rfl nofun
  exact ⟨nofun, last, nofun, nofun, same.released⟩

end Standing

variable {new i : Input} {deeds : List Deed} {live : Nat}

theorem Serves.standing {id : String} {s : InputSettings} (made : ofSettings id s = .ok new)
    (history : Serves new deeds i live) : Standing deeds i live := by
  induction history with
  | unused => exact .ofSettings made
  | start bind before ih => exact ih.start bind
  | stop before ih => exact ih.stop
  | ended served before ih => exact ih.ended _

/-- At any time in the life of an input, a start succeeds exactly if the server is stopped and the address
can be bound, and only then a task is left behind; any other start leaves the input as it is. There is at
most one task, and the state is that of a server that runs or stops exactly while there is one: it stops
if a stop has come since that task was left behind. A stop never fails, and a further one changes nothing.
Without a task, in whatever way the last one ended, the server can be started. -/
theorem state_follows_server {id : String} {s : InputSettings} (made : ofSettings id s = .ok new)
    (history : Serves new deeds i live) :
    (∀ bind, ((i.launch bind).outcome = .ok () ↔ i.state = .stopped ∧ bind = .ok ()) ∧
      ((i.launch bind).outcome = .ok () →
        (i.launch bind).operator.state = .running ∧ (i.launch bind).tasks.length = 1) ∧
      ((i.launch bind).outcome ≠ .ok () →
        (i.launch bind).operator = i ∧ (i.launch bind).tasks = [])) ∧
    live ≤ 1 ∧
    (i.state = .running ∨ i.state = .stopping ↔ live ≠ 0) ∧
    (i.state = .stopping ↔ live ≠ 0 ∧ Deed.stop ∈ since deeds) ∧
    (Operator.stop i).outcome = .ok () ∧
    (i.state = .running → i.stop.2 = true ∧ (Operator.stop i).operator.state = .stopping) ∧
    (Deed.stop ∈ since deeds → i.stop.2 = false ∧ (Operator.stop i).operator = i) ∧
    (live = 0 → (i.launch (.ok ())).outcome = .ok ()) := by
  have h := history.standing made
  have succeeds : ∀ bind, (i.launch bind).outcome = .ok () ↔ i.state = .stopped ∧ bind = .ok () := by
    intro bind
    obtain ⟨stopped, bound, opened⟩ | ⟨not, cause, refused⟩ := launch_cases bind i
    · exact iff_of_true (by rw [opened]) ⟨stopped, bound⟩
    · exact iff_of_false (by rw [refused]; nofun) not
  have without : i.state = .stopped ↔ live = 0 := by
    rw [h.live]
    split <;> simp_all
  have cases_state : i.state = .running ∨ i.state = .stopping ↔ i.state ≠ .stopped := by
    have settled := h.settled
    cases state : i.state <;> simp_all
  refine ⟨fun bind => ⟨succeeds bind, ?_, ?_⟩, ?_, cases_state.trans (not_congr without), ?_, rfl, ?_, ?_,
    fun none_live => (succeeds _).2 ⟨without.2 none_live, rfl⟩⟩
  · intro opens
    obtain ⟨-, -, opened⟩ | ⟨-, cause, refused⟩ := launch_cases bind i
    · rw [opened]
      exact ⟨rfl, rfl⟩
    · rw [refused] at opens
      cases opens
  · intro fails
    obtain ⟨-, -, opened⟩ | ⟨-, cause, refused⟩ := launch_cases bind i
    · exact absurd (by rw [opened]) fails
    · rw [refused]
      exact ⟨rfl, rfl⟩
  · rw [h.live]
    split <;> omega
  · constructor
    · intro stopping
      exact ⟨(not_congr without).1 (by rw [stopping]; nofun), h.stopping stopping⟩
    · rintro ⟨there, told⟩
      have atWork := cases_state.2 ((not_congr without).2 there)
      exact atWork.resolve_left fun running => (h.running running).1 told
  · intro running
    show i.stop.2 = true ∧ i.stop.1.state = .stopping
    rw [stop_of_held (h.running running).2]
    exact ⟨rfl, if_pos running⟩
  · intro told
    show i.stop.2 = false ∧ i.stop.1 = i
    rw [stop_of_released (h.released told)]
    exact ⟨rfl, rfl⟩

def newInput : Input :=
  { id := "http", listenAddress := .four [0, 0, 0, 0] 0, handler := {} }

/-- A server fails by itself, a stop comes too late for it, and the next one is told to stop. -/
theorem failed_server_starts_again :
    ∃ i, Serves newInput
        [.start (.ok ()), .ended (.error ⟨"http server failed", ["broken pipe"]⟩), .stop,
          .start (.ok ()), .stop] i 1 ∧
      i.state = .stopping ∧ (i.launch (.ok ())).outcome ≠ .ok () ∧ (Operator.stop i).operator = i := by
  have made : ofSettings "http" InputSettings.start = .ok newInput := rfl
  have opened : Serves newInput _ _ 1 := .start (.ok ()) .unused
  have failed := Serves.ended (.error ⟨"broken pipe", []⟩) opened
  have again := Serves.stop (.start (.ok ()) (.stop failed))
  obtain ⟨starts, -, -, stopping, -, -, twice, -⟩ := state_follows_server made again
  have told : Deed.stop ∈ since [.start (.ok ()), .ended (.error ⟨"http server failed", ["broken pipe"]⟩),
      .stop, .start (.ok ()), .stop] := by
    simp [since, List.rtakeWhile, Deed.opens]
  have state := stopping.2 ⟨by decide, told⟩
  refine ⟨_, again, state, fun opens => ?_, (twice told).2⟩
  cases state.symm.trans ((starts _).1.1 opens).1

end LogIntake.Http.Input
