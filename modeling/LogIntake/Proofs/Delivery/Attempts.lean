import LogIntake.Proofs.Delivery.Offers

/-!
How often and when logs are offered. A delivery takes up one batch after another and makes attempts at
it. It pauses behind a failure, each time twice as long, and tries again, until it has used up its
attempts or draining began before the consumer answered.
-/
namespace LogIntake

/-! ### Pauses -/

namespace Span

theorem nanoseconds_le_longest (s : Span) : s.nanoseconds ≤ longest := by
  have := s.inRange
  unfold longest
  omega

@[simp] theorem capped_nanoseconds (s : Span) : capped s.nanoseconds = s := by
  cases s with
  | mk n inRange =>
    have fits : min n longest = n := Nat.min_eq_left (nanoseconds_le_longest ⟨n, inRange⟩)
    simp only [capped, fits]

theorem double_capped (n : Nat) : (capped n).double = capped (2 * n) := by
  have same : min (2 * min n longest) longest = min (2 * n) longest := by omega
  simp only [double, capped, same]

end Span

namespace DeliveryPolicy

/-- The pause behind an attempt. The attempts are counted from zero, and each pause is twice as long as
the one before, up to the longest span. -/
def pauseAfter (p : DeliveryPolicy) (k : Nat) : Span := .capped (p.backoff.nanoseconds * Nat.pow 2 k)

@[simp] theorem pauseAfter_zero (p : DeliveryPolicy) : p.pauseAfter 0 = p.backoff := by
  simp [pauseAfter]

@[simp] theorem double_pauseAfter (p : DeliveryPolicy) (k : Nat) :
    (p.pauseAfter k).double = p.pauseAfter (k + 1) := by
  have twice : 2 * (p.backoff.nanoseconds * Nat.pow 2 k) = p.backoff.nanoseconds * Nat.pow 2 (k + 1) := by
    rw [Nat.mul_comm, Nat.mul_assoc]
    rfl
  rw [pauseAfter, Span.double_capped, twice, pauseAfter]

end DeliveryPolicy

namespace Delivery

/-! ### Courses -/

def answered (d : Delivery) : Nat :=
  match d.activity with
  | .calling _ _ _ call _ _ => call
  | _ => d.calls

@[simp] theorem answered_answer (d : Delivery) (now : Nat) (logs : Logs) (left : Nat) (pause : Span)
    (call : Nat) (outcome : Except Failure Unit) :
    (d.answer now logs left pause call outcome).answered = d.calls := by
  cases outcome with
  | ok accepted => rfl
  | error cause =>
    cases left with
    | zero => rfl
    | succ left => cases hd : d.draining <;> simp [answered, answer, afterFailure, hd]

def pausedBehind? (call : Nat) (d : Delivery) : Option Nat :=
  match d.activity with
  | .pausing _ _ _ _ => if d.calls = call + 1 then some d.now else none
  | _ => none

/-- The state in which draining began, if it has, is one in which a call was not answered: either the
consumer was about to, or the call was still to come. -/
def IsLate (cut : Option Delivery) (call : Nat) : Prop := ∃ c, cut = some c ∧ c.answered ≤ call

def wokenAt? (cut : Option Delivery) (call : Nat) : Option Nat := cut.bind (pausedBehind? call)

section

variable (policy : DeliveryPolicy) (consumer : Consumer) (cut : Option Delivery) (logs : Logs)
  (first : Nat)

/-- When logs are offered again after a failure: at the end of the pause, or as soon as draining begins
in it. -/
def resumesAt (k failedAt : Nat) : Nat :=
  (wokenAt? cut (first + k)).getD (failedAt + (policy.pauseAfter k).ceilMilliseconds)

/-- A pause of whole milliseconds that nothing cuts short takes just its time. -/
theorem resumesAt_of_whole {k : Nat} (asleep : wokenAt? cut (first + k) = none)
    (whole : 1000000 ∣ (policy.pauseAfter k).nanoseconds) (failedAt : Nat) :
    resumesAt policy cut first k failedAt * 1000000 =
      failedAt * 1000000 + (policy.pauseAfter k).nanoseconds := by
  rw [resumesAt, asleep, Option.getD_none, Nat.add_mul, Span.ceilMilliseconds_mul whole]

/-- The attempts at some logs from the first call on: how many there were before the present one, when it
began, and what happened in those before. -/
inductive Attempts : Nat → Nat → List DeliveryEvent → Prop
  | once (start : Nat) : Attempts 0 start []
  | again {k start delay : Nat} {cause : Failure} {events : List DeliveryEvent}
      (sofar : Attempts k start events) (room : k + 1 < policy.attempts)
      (failed : consumer (first + k) logs = ⟨some delay, .error cause⟩)
      (inTime : ¬ IsLate cut (first + k)) :
      Attempts (k + 1) (resumesAt policy cut first k (start + delay))
        (events ++ [.offered (first + k) start logs, .failed (first + k) (start + delay) cause])

inductive Delivered : Nat → List DeliveryEvent → Prop
  | accepted {k start delay : Nat} {events : List DeliveryEvent}
      (sofar : Attempts policy consumer cut logs first k start events)
      (accepts : consumer (first + k) logs = ⟨some delay, .ok ()⟩) :
      Delivered (k + 1)
        (events ++ [.offered (first + k) start logs, .accepted (first + k) (start + delay)])
  | givenUp {k start delay : Nat} {cause : Failure} {events : List DeliveryEvent}
      (sofar : Attempts policy consumer cut logs first k start events)
      (failed : consumer (first + k) logs = ⟨some delay, .error cause⟩)
      (last : k + 1 = policy.attempts ∨ IsLate cut (first + k)) :
      Delivered (k + 1)
        (events ++ [.offered (first + k) start logs, .failed (first + k) (start + delay) cause])

inductive Courses : List Batch → Nat → List DeliveryEvent → Prop
  | nil : Courses [] 0 []
  | batch {done : List Batch} {calls n : Nat} {events more : List DeliveryEvent} (batch : Batch)
      (before : Courses done calls events)
      (delivered : Delivered policy consumer cut (Logs.ofBatch batch) calls n more) :
      Courses (done ++ [batch]) (calls + n) (events ++ more)

end

variable {policy : DeliveryPolicy} {consumer : Consumer} {cut : Option Delivery} {logs : Logs}
  {first k start n : Nat} {events : List DeliveryEvent}

@[simp] theorem not_isLate_none (call : Nat) : ¬ IsLate none call := by
  rintro ⟨c, hc, -⟩
  cases hc

namespace Attempts

theorem lt_attempts (h : Attempts policy consumer cut logs first k start events) :
    k < policy.attempts := by
  cases h with
  | once => exact Nat.succ_pos _
  | again sofar room failed inTime => exact room

end Attempts

/-- What the policy says of a number of attempts at some logs, beginning with the first call. -/
structure Follows (policy : DeliveryPolicy) (consumer : Consumer) (cut : Option Delivery) (logs : Logs)
    (first n : Nat) (events : List DeliveryEvent) : Prop where
  pos : 0 < n
  within : n ≤ policy.attempts
  /-- All attempts are made with the same logs. -/
  same : offered events = List.replicate n logs
  /-- Only a failure before draining is followed by another attempt. -/
  again : ∀ i, i + 1 < n → (∃ cause, (consumer (first + i) logs).outcome = .error cause) ∧
    ¬ IsLate cut (first + i)
  pause : ∀ i t cause, .failed (first + i) t cause ∈ events → i + 1 < n →
    .offered (first + (i + 1)) (resumesAt policy cut first i t) logs ∈ events
  /-- An attempt for which draining ended the pause is the last. -/
  woken : ∀ i, wokenAt? cut (first + i) ≠ none → n ≤ i + 2

namespace Delivered

end Delivered

/-! ### Draining begins -/

section

variable {d : Delivery}

theorem not_isLate_of_lt {call : Nat} (h : call < d.answered) : ¬ IsLate (some d) call := by
  rintro ⟨c, hc, late⟩
  obtain rfl := Option.some.inj hc
  omega

theorem wokenAt?_of_lt {call : Nat} (h : call + 1 < d.calls) : wokenAt? (some d) call = none := by
  have later : ¬ d.calls = call + 1 := by omega
  rw [wokenAt?, Option.bind_some, pausedBehind?]
  split
  · rw [if_neg later]
  · rfl

theorem Attempts.cancel (h : Attempts policy consumer none logs first k start events)
    (answered : first + k ≤ d.answered) (called : first + k < d.calls) :
    Attempts policy consumer (some d) logs first k start events := by
  induction h with
  | once start => exact .once start
  | @again k start delay cause events sofar room failed inTime ih =>
    have before := ih (by omega) (by omega)
    have same : resumesAt policy none first k (start + delay) =
        resumesAt policy (some d) first k (start + delay) := by
      rw [resumesAt, resumesAt, wokenAt?_of_lt (by omega)]
      rfl
    rw [same]
    exact .again before room failed (not_isLate_of_lt (by omega))

theorem Delivered.cancel (h : Delivered policy consumer none logs first n events)
    (answered : first + n ≤ d.answered) (called : first + n ≤ d.calls) :
    Delivered policy consumer (some d) logs first n events := by
  cases h with
  | accepted sofar accepts => exact .accepted (sofar.cancel (by omega) (by omega)) accepts
  | givenUp sofar failed last =>
    have spent := last.resolve_right (not_isLate_none _)
    exact .givenUp (sofar.cancel (by omega) (by omega)) failed (.inl spent)

theorem Courses.cancel {done : List Batch} (h : Courses policy consumer none done first events)
    (answered : first ≤ d.answered) (called : first ≤ d.calls) :
    Courses policy consumer (some d) done first events := by
  induction h with
  | nil => exact .nil
  | batch batch before delivered ih =>
    exact .batch batch (ih (by omega) (by omega)) (delivered.cancel answered called)

end

end Delivery

end LogIntake
