import LogIntake.Logs
import LogIntake.Settings.Basic

/-!
Handing batches to a consumer, one after another and each until it is accepted or given up. Once the
delivery is draining, a pause ends at once and the attempt that follows is the last. Times are whole
milliseconds.
-/
namespace LogIntake

structure Reply where
  /-- How many milliseconds it takes; without, it never answers. -/
  delay : Option Nat := some 0
  outcome : Except Failure Unit := .ok ()
deriving Inhabited

/-- A consumer, by the number of the call and the logs that it is offered. -/
abbrev Consumer := Nat → Logs → Reply

structure DeliveryPolicy where
  /-- How often a batch is offered again after the first attempt, at most. -/
  retries : Nat
  /-- The first pause; each one after it is twice as long. -/
  backoff : Span

def maxAttempts : Nat := (1 <<< 32) - 1

namespace DeliveryPolicy

def attempts (p : DeliveryPolicy) : Nat := p.retries + 1

def ofSettings (s : DeliverySettings) : DeliveryPolicy where
  retries := match s.onError with
    | .drop => 0
    | .retry => min s.maxRetries (maxAttempts - 1)
  backoff := s.retryBackoff

end DeliveryPolicy

inductive DeliveryEvent where
  | offered (call now : Nat) (logs : Logs)
  | failed (call now : Nat) (cause : Failure)
  | accepted (call now : Nat)

namespace Delivery

/-- What a delivery is doing. Where it holds logs, `left` is how often they may still be offered
beyond the attempt under way, or beyond the one after the pause. -/
inductive Activity where
  /-- Waits for a batch. -/
  | idle
  /-- Has offered logs and waits for the answer; a failure is followed by the pause. -/
  | calling (logs : Logs) (left : Nat) (pause : Span) (call : Nat) (answerAt : Option Nat)
      (outcome : Except Failure Unit)
  /-- Waits before it offers logs again; the pause after that attempt is given. -/
  | pausing (logs : Logs) (left : Nat) (pause : Span) (wakeAt : Nat)
  | ended
deriving Inhabited

end Delivery

structure Delivery where
  policy : DeliveryPolicy
  consumer : Consumer
  now : Nat
  queue : List Batch := []
  calls : Nat := 0
  activity : Delivery.Activity := .idle
  /-- No more batches come. -/
  closed : Bool := false
  draining : Bool := false
  /-- What has happened so far. -/
  events : List DeliveryEvent := []

namespace Delivery

/-- Whether a point in time comes before the limit, if there is one. -/
def before (limit : Option Nat) (t : Nat) : Bool := limit.all fun l => t < l

def offer (now : Nat) (logs : Logs) (left : Nat) (pause : Span) (d : Delivery) : Delivery :=
  let reply := d.consumer d.calls logs
  { d with
    now
    calls := d.calls + 1
    activity := .calling logs left pause d.calls (reply.delay.map (now + ·)) reply.outcome
    events := d.events ++ [.offered d.calls now logs] }

/-- What follows a failed attempt. While draining there is no other. -/
def afterFailure (now : Nat) (logs : Logs) (left : Nat) (pause : Span) (draining : Bool) :
    Activity :=
  match left with
  | 0 => .idle
  | left + 1 =>
    if draining then .idle
    else .pausing logs left pause.double (now + pause.ceilMilliseconds)

def answer (now : Nat) (logs : Logs) (left : Nat) (pause : Span) (call : Nat)
    (outcome : Except Failure Unit) (d : Delivery) : Delivery :=
  match outcome with
  | .ok () => { d with now, activity := .idle, events := d.events ++ [.accepted call now] }
  | .error cause =>
    { d with
      now
      activity := afterFailure now logs left pause d.draining
      events := d.events ++ [.failed call now cause] }

def next? (limit : Option Nat) (d : Delivery) : Option Delivery :=
  match d.activity with
  | .ended => none
  | .idle =>
    if before limit d.now then
      match d.queue with
      | batch :: queue =>
        some ({ d with queue }.offer d.now (Logs.ofBatch batch) d.policy.retries d.policy.backoff)
      | [] => if d.closed then some { d with activity := .ended } else none
    else none
  | .calling logs left pause call (some answerAt) outcome =>
    let t := max d.now answerAt
    if before limit t then some (d.answer t logs left pause call outcome) else none
  | .calling _ _ _ _ none _ => none
  | .pausing logs left pause wakeAt =>
    let t := if d.draining then d.now else max d.now wakeAt
    if before limit t then some (d.offer t logs left pause) else none

def Activity.weight : Activity → Nat
  | ended => 0
  | idle => 1
  | calling _ left .. => 2 * left + 2
  | pausing _ left .. => 2 * left + 3

/-- A bound on what can still happen without new batches. -/
def weight (d : Delivery) : Nat := d.queue.length * (2 * d.policy.retries + 2) + d.activity.weight

theorem weight_afterFailure_lt (now : Nat) (logs : Logs) (left : Nat) (pause : Span)
    (draining : Bool) : (afterFailure now logs left pause draining).weight < 2 * left + 2 := by
  unfold afterFailure
  split
  · simp [Activity.weight]
  · split <;> simp only [Activity.weight] <;> omega

theorem weight_answer_lt (now : Nat) (logs : Logs) (left : Nat) (pause : Span) (call : Nat)
    (outcome : Except Failure Unit) (d : Delivery) :
    (d.answer now logs left pause call outcome).weight <
      d.queue.length * (2 * d.policy.retries + 2) + (2 * left + 2) := by
  unfold answer
  split
  · simp only [weight, Activity.weight]
    omega
  · exact Nat.add_lt_add_left (weight_afterFailure_lt now logs left pause d.draining) _

theorem weight_next?_lt {limit : Option Nat} {d d' : Delivery} (h : d.next? limit = some d') :
    d'.weight < d.weight := by
  rw [next?] at h
  split at h
  · simp at h
  · next ha =>
    split at h
    · split at h
      · next batch queue hq =>
        obtain rfl := Option.some.inj h
        simp only [offer, weight, Activity.weight, ha, hq, List.length_cons, Nat.add_mul]
        omega
      · next hq =>
        split at h
        · obtain rfl := Option.some.inj h
          simp [weight, Activity.weight, ha]
        · simp at h
    · simp at h
  · next logs left pause call answerAt outcome ha =>
    obtain ⟨-, rfl⟩ := by simpa using h
    have := weight_answer_lt (max d.now answerAt) logs left pause call outcome d
    simp only [weight, Activity.weight, ha] at this ⊢
    omega
  · simp at h
  · next logs left pause wakeAt ha =>
    obtain ⟨-, rfl⟩ := by simpa using h
    simp only [offer, weight, Activity.weight, ha]
    omega

def run (limit : Option Nat) (d : Delivery) : Delivery :=
  match _h : d.next? limit with
  | none => d
  | some d' => run limit d'
termination_by d.weight
decreasing_by exact weight_next?_lt _h

def elapse (limit : Nat) (d : Delivery) : Delivery :=
  let d := d.run (some limit)
  { d with now := max d.now limit }

/-- Lets everything happen up to a time, and what happens at that time too. -/
def settle (t : Nat) (d : Delivery) : Delivery :=
  let d := d.run (some (t + 1))
  { d with now := max d.now t }

def feed : List (Nat × Batch) → Delivery → Delivery
  | [], d => d
  | (t, batch) :: rest, d =>
    let d := d.elapse t
    feed rest { d with queue := d.queue ++ [batch] }

/-- No more batches come, and nothing is waited for any more. -/
def drain (d : Delivery) : Delivery := { d with closed := true, draining := true }

def isOver (d : Delivery) : Bool :=
  match d.activity with
  | .ended => true
  | _ => false

end Delivery

end LogIntake
