import LogIntake.Proofs.Delivery.Attempts

/-!
What a delivery does with the batches that come. Whatever the order in which batches, answers and the
clock come, and whenever draining begins, it makes the attempts at one batch after another, as its policy
has it.
-/
namespace LogIntake

namespace Delivery

/-! ### Steps -/

theorem next?_of_idle {d : Delivery} {batch : Batch} {queue : List Batch} (limit : Option Nat)
    (h : d.activity = .idle) (waiting : d.queue = batch :: queue) :
    d.next? limit =
      if before limit d.now then
        some ({ d with queue }.offer d.now (Logs.ofBatch batch) d.policy.retries d.policy.backoff)
      else none := by
  simp only [next?, h, waiting]

theorem next?_of_empty {d : Delivery} (limit : Option Nat) (h : d.activity = .idle)
    (empty : d.queue = []) :
    d.next? limit =
      if before limit d.now then if d.closed then some { d with activity := .ended } else none
      else none := by
  simp only [next?, h, empty]

theorem next?_of_calling {d : Delivery} {logs : Logs} {left : Nat} {pause : Span} {call t : Nat}
    {outcome : Except Failure Unit} (limit : Option Nat)
    (h : d.activity = .calling logs left pause call (some t) outcome) :
    d.next? limit =
      if before limit (max d.now t) then some (d.answer (max d.now t) logs left pause call outcome)
      else none := by
  simp only [next?, h]

theorem next?_of_pausing {d : Delivery} {logs : Logs} {left : Nat} {pause : Span} {wakeAt : Nat}
    (limit : Option Nat) (h : d.activity = .pausing logs left pause wakeAt) :
    d.next? limit =
      let t := if d.draining then d.now else max d.now wakeAt
      if before limit t then some (d.offer t logs left pause) else none := by
  simp only [next?, h]

theorem le_of_quiet {a t : Nat} {next : Delivery}
    (quiet : (if before (some a) t then some next else none) = none) : a ≤ t := by
  refine Nat.le_of_not_lt fun early => ?_
  rw [if_pos (by simpa [before] using early)] at quiet
  cases quiet

theorem guarded_eq_none_of_le {a b t : Nat} (h : a ≤ b) {next : Option Delivery}
    (quiet : (if before (some b) t then next else none) = none) :
    (if before (some a) t then next else none) = none := by
  simp only [before, Option.all_some, decide_eq_true_eq] at quiet ⊢
  by_cases early : t < a
  · rw [if_pos (Nat.lt_of_lt_of_le early h)] at quiet
    rw [if_pos early, quiet]
  · rw [if_neg early]

theorem next?_eq_none_of_le {a b : Nat} {d : Delivery} (h : a ≤ b)
    (quiet : d.next? (some b) = none) : d.next? (some a) = none := by
  cases ha : d.activity with
  | idle =>
    simp only [next?, ha] at quiet ⊢
    exact guarded_eq_none_of_le h quiet
  | calling logs left pause call answerAt outcome =>
    cases answerAt with
    | none => simp only [next?, ha]
    | some t =>
      simp only [next?, ha] at quiet ⊢
      exact guarded_eq_none_of_le h quiet
  | pausing logs left pause wakeAt =>
    simp only [next?, ha] at quiet ⊢
    exact guarded_eq_none_of_le h quiet
  | ended => simp only [next?, ha]

inductive Next (d : Delivery) : Delivery → Prop
  | takesUp {batch : Batch} {queue : List Batch} (idle : d.activity = .idle)
      (waiting : d.queue = batch :: queue) :
      Next d ({ d with queue }.offer d.now (Logs.ofBatch batch) d.policy.retries d.policy.backoff)
  | ends (idle : d.activity = .idle) (empty : d.queue = []) (closed : d.closed = true) :
      Next d { d with activity := .ended }
  | answers {logs : Logs} {left call t : Nat} {pause : Span} {outcome : Except Failure Unit}
      (calling : d.activity = .calling logs left pause call (some t) outcome) :
      Next d (d.answer (max d.now t) logs left pause call outcome)
  | resumes {logs : Logs} {left wakeAt : Nat} {pause : Span}
      (pausing : d.activity = .pausing logs left pause wakeAt) :
      Next d (d.offer (if d.draining then d.now else max d.now wakeAt) logs left pause)

theorem next_of_next? {limit : Option Nat} {d d' : Delivery} (h : d.next? limit = some d') :
    Next d d' := by
  cases ha : d.activity with
  | idle =>
    cases hq : d.queue with
    | nil =>
      rw [next?_of_empty _ ha hq, Option.ite_none_right_eq_some] at h
      obtain ⟨closed, h⟩ := Option.ite_none_right_eq_some.1 h.2
      obtain rfl := Option.some.inj h
      exact .ends ha hq closed
    | cons batch queue =>
      rw [next?_of_idle _ ha hq, Option.ite_none_right_eq_some] at h
      obtain rfl := Option.some.inj h.2
      exact .takesUp ha hq
  | calling logs left pause call answerAt outcome =>
    cases answerAt with
    | none => simp [next?, ha] at h
    | some t =>
      rw [next?_of_calling _ ha, Option.ite_none_right_eq_some] at h
      obtain rfl := Option.some.inj h.2
      exact .answers ha
  | pausing logs left pause wakeAt =>
    rw [next?_of_pausing _ ha, Option.ite_none_right_eq_some] at h
    obtain rfl := Option.some.inj h.2
    exact .resumes ha
  | ended => simp [next?, ha] at h

theorem Next.closed_eq {d d' : Delivery} (h : Next d d') : d'.closed = d.closed := by
  cases h with
  | takesUp idle waiting => rfl
  | ends idle empty closed => rfl
  | @answers logs left call t pause outcome calling => cases outcome <;> rfl
  | resumes pausing => rfl

theorem next?_run (limit : Option Nat) (d : Delivery) : (d.run limit).next? limit = none := by
  fun_induction run limit d with
  | case1 d h => exact h
  | case2 d d' h ih => exact ih

theorem closed_run (limit : Option Nat) (d : Delivery) : (d.run limit).closed = d.closed := by
  fun_induction run limit d with
  | case1 d h => rfl
  | case2 d d' h ih => exact ih.trans (next_of_next? h).closed_eq

/-! ### Where a delivery can come to -/

/-- The states that a delivery comes to, with the batches that came and the state in which draining
began. Batches, the consumer, the clock and the end of all pauses have their turns in any order; but the
clock does not go past what is due. -/
inductive Reaches (d₀ : Delivery) : List Batch → Option Delivery → Delivery → Prop
  | start : Reaches d₀ [] none d₀
  | come {come : List Batch} {cut : Option Delivery} {d : Delivery} (batch : Batch)
      (opened : d.closed = false) (before : Reaches d₀ come cut d) :
      Reaches d₀ (come ++ [batch]) cut { d with queue := d.queue ++ [batch] }
  | step {come : List Batch} {cut : Option Delivery} {d d' : Delivery} {limit : Option Nat}
      (next : d.next? limit = some d') (before : Reaches d₀ come cut d) : Reaches d₀ come cut d'
  | wait {come : List Batch} {cut : Option Delivery} {d : Delivery} {t : Nat}
      (quiet : d.next? (some t) = none) (before : Reaches d₀ come cut d) :
      Reaches d₀ come cut { d with now := max d.now t }
  | close {come : List Batch} {cut : Option Delivery} {d : Delivery} (before : Reaches d₀ come cut d) :
      Reaches d₀ come cut { d with closed := true }
  | cancel {come : List Batch} {d : Delivery} (before : Reaches d₀ come none d) :
      Reaches d₀ come (some d) { d with draining := true }

variable {policy : DeliveryPolicy} {consumer : Consumer} {cut : Option Delivery} {first k start : Nat}

namespace Reaches

variable {d₀ d : Delivery} {come : List Batch}

theorem run (limit : Option Nat) (history : Reaches d₀ come cut d) :
    Reaches d₀ come cut (d.run limit) := by
  fun_induction Delivery.run limit d with
  | case1 d h => exact history
  | case2 d d' h ih => exact ih (.step h history)

theorem elapse (limit : Nat) (history : Reaches d₀ come cut d) :
    Reaches d₀ come cut (d.elapse limit) := .wait (next?_run _ d) (history.run (some limit))

theorem settle (t : Nat) (history : Reaches d₀ come cut d) : Reaches d₀ come cut (d.settle t) :=
  .wait (next?_eq_none_of_le (Nat.le_succ t) (next?_run _ d)) (history.run (some (t + 1)))

theorem feed (batches : List (Nat × Batch)) (opened : d.closed = false)
    (history : Reaches d₀ come cut d) :
    Reaches d₀ (come ++ batches.map Prod.snd) cut (d.feed batches) := by
  induction batches generalizing come d with
  | nil => rwa [List.map_nil, List.append_nil]
  | cons arrival rest ih =>
    obtain ⟨t, batch⟩ := arrival
    have stillOpen : (d.elapse t).closed = false := (closed_run _ d).trans opened
    have arrived : Reaches d₀ (come ++ [batch]) cut
        { d.elapse t with queue := (d.elapse t).queue ++ [batch] } :=
      .come batch stillOpen (history.elapse t)
    rw [List.map_cons, List.append_cons]
    exact ih stillOpen arrived

theorem drain (history : Reaches d₀ come none d) :
    Reaches d₀ come (some { d with closed := true }) d.drain := .cancel (.close history)

end Reaches

/-! ### What it has done there -/

section

variable (policy : DeliveryPolicy) (consumer : Consumer) (cut : Option Delivery)
  (come done : List Batch) (first : Nat) (past : List DeliveryEvent)

structure Rests (d : Delivery) : Prop where
  activity : d.activity = .idle ∨ d.activity = .ended ∧ d.closed = true ∧ d.queue = []
  batches : come = done ++ d.queue
  calls : d.calls = first
  events : d.events = past

structure Calls (batch : Batch) (k start : Nat) (sofar : List DeliveryEvent) (d : Delivery) :
    Prop where
  activity : d.activity =
    .calling (Logs.ofBatch batch) (policy.retries - k) (policy.pauseAfter k) (first + k)
      ((consumer (first + k) (Logs.ofBatch batch)).delay.map (start + ·))
      (consumer (first + k) (Logs.ofBatch batch)).outcome
  attempts : Attempts policy consumer cut (Logs.ofBatch batch) first k start sofar
  onTime : ∀ delay, (consumer (first + k) (Logs.ofBatch batch)).delay = some delay →
    d.now ≤ start + delay
  batches : come = done ++ batch :: d.queue
  calls : d.calls = first + k + 1
  events : d.events = past ++ (sofar ++ [.offered (first + k) start (Logs.ofBatch batch)])

structure Pauses (batch : Batch) (k start delay : Nat) (cause : Failure)
    (sofar : List DeliveryEvent) (d : Delivery) : Prop where
  activity : d.activity =
    .pausing (Logs.ofBatch batch) (policy.retries - (k + 1)) (policy.pauseAfter (k + 1))
      (start + delay + (policy.pauseAfter k).ceilMilliseconds)
  attempts : Attempts policy consumer cut (Logs.ofBatch batch) first k start sofar
  room : k + 1 < policy.attempts
  failed : consumer (first + k) (Logs.ofBatch batch) = ⟨some delay, .error cause⟩
  inTime : ¬ IsLate cut (first + k)
  onTime : d.now ≤ start + delay + (policy.pauseAfter k).ceilMilliseconds
  woken : ∀ c, cut = some c → wokenAt? cut (first + k) = some d.now
  batches : come = done ++ batch :: d.queue
  calls : d.calls = first + k + 1
  events : d.events = past ++ (sofar ++
    [.offered (first + k) start (Logs.ofBatch batch), .failed (first + k) (start + delay) cause])

/-- Some batches have been delivered, one may be under way, and the others wait. -/
inductive Stands (d : Delivery) : Prop
  | rests {done : List Batch} {first : Nat} {past : List DeliveryEvent}
      (courses : Courses policy consumer cut done first past) (rests : Rests come done first past d)
  | calls {done : List Batch} {first : Nat} {past : List DeliveryEvent} {batch : Batch} {k start : Nat}
      {sofar : List DeliveryEvent} (courses : Courses policy consumer cut done first past)
      (calls : Calls policy consumer cut come done first past batch k start sofar d)
  | pauses {done : List Batch} {first : Nat} {past : List DeliveryEvent} {batch : Batch}
      {k start delay : Nat} {cause : Failure} {sofar : List DeliveryEvent}
      (courses : Courses policy consumer cut done first past)
      (pauses : Pauses policy consumer cut come done first past batch k start delay cause sofar d)

structure Keeps (d : Delivery) : Prop where
  samePolicy : d.policy = policy
  sameConsumer : d.consumer = consumer
  draining : d.draining = cut.isSome
  since : ∀ c, cut = some c → c.answered ≤ d.answered
  stands : Stands policy consumer cut come d

end

section

variable {come done : List Batch} {past sofar : List DeliveryEvent} {batch : Batch} {d : Delivery}

theorem Rests.answered_eq (rests : Rests come done first past d) : d.answered = first := by
  obtain idle | ⟨ended, -⟩ := rests.activity
  · rw [answered, idle, ← rests.calls]
  · rw [answered, ended, ← rests.calls]

theorem Calls.answered_eq
    (calls : Calls policy consumer cut come done first past batch k start sofar d) :
    d.answered = first + k := by
  rw [answered, calls.activity]

theorem Calls.answered_le
    (calls : Calls policy consumer cut come done first past batch k start sofar d) :
    d.answered ≤ d.calls := by
  rw [calls.answered_eq, calls.calls]
  exact Nat.le_succ _

theorem Pauses.answered_eq {delay : Nat} {cause : Failure}
    (pauses : Pauses policy consumer cut come done first past batch k start delay cause sofar d) :
    d.answered = first + k + 1 := by
  rw [answered, pauses.activity, pauses.calls]

end

variable {come : List Batch} {d d' : Delivery}

namespace Keeps

theorem onward {more : List Batch} (h : Keeps policy consumer cut come d)
    (same : d'.policy = d.policy ∧ d'.consumer = d.consumer ∧ d'.draining = d.draining)
    (answered : d.answered ≤ d'.answered) (stands : Stands policy consumer cut more d') :
    Keeps policy consumer cut more d' where
  samePolicy := same.1.trans h.samePolicy
  sameConsumer := same.2.1.trans h.sameConsumer
  draining := same.2.2.trans h.draining
  since c hc := Nat.le_trans (h.since c hc) answered
  stands := stands

theorem begin (now : Nat) : Keeps policy consumer none [] { policy, consumer, now } where
  samePolicy := rfl
  sameConsumer := rfl
  draining := rfl
  since c hc := by cases hc
  stands := .rests .nil ⟨.inl rfl, rfl, rfl, rfl⟩

theorem enqueue (h : Keeps policy consumer cut come d) (opened : d.closed = false) (batch : Batch) :
    Keeps policy consumer cut (come ++ [batch]) { d with queue := d.queue ++ [batch] } := by
  refine h.onward ⟨rfl, rfl, rfl⟩ (Nat.le_refl _) ?_
  cases h.stands with
  | rests courses rests =>
    have idle : d.activity = .idle := by
      refine rests.activity.resolve_right fun ended => ?_
      rw [opened] at ended
      cases ended.2.1
    exact .rests courses
      { rests with
        activity := .inl idle
        batches := by rw [rests.batches, List.append_assoc] }
  | calls courses calls =>
    exact .calls courses { calls with batches := by rw [calls.batches, List.append_assoc]; rfl }
  | pauses courses pauses =>
    exact .pauses courses { pauses with batches := by rw [pauses.batches, List.append_assoc]; rfl }

theorem wait (h : Keeps policy consumer cut come d) {t : Nat} (quiet : d.next? (some t) = none) :
    Keeps policy consumer cut come { d with now := max d.now t } := by
  refine h.onward ⟨rfl, rfl, rfl⟩ (Nat.le_refl _) ?_
  cases h.stands with
  | rests courses rests => exact .rests courses { rests with }
  | @calls _ first _ batch k start _ courses calls =>
    refine .calls courses { calls with onTime := fun delay answers => ?_ }
    have due := calls.onTime delay answers
    have activity := calls.activity
    rw [answers, Option.map_some] at activity
    rw [next?_of_calling _ activity] at quiet
    have notYet := le_of_quiet quiet
    show max d.now t ≤ start + delay
    omega
  | @pauses _ first _ batch k start delay _ _ courses pauses =>
    have due := pauses.onTime
    rw [next?_of_pausing _ pauses.activity] at quiet
    have notYet := le_of_quiet quiet
    cases hd : d.draining with
    | false =>
      rw [hd, if_neg Bool.false_ne_true] at notYet
      have never : cut = none := by simpa [hd] using h.draining.symm
      refine .pauses courses
        { pauses with
          onTime := ?_
          woken := fun c hc => by cases never.symm.trans hc }
      show max d.now t ≤ _
      omega
    | true =>
      rw [hd, if_pos rfl] at notYet
      have stays : max d.now t = d.now := Nat.max_eq_left notYet
      rw [stays]
      exact .pauses courses { pauses with }

theorem close (h : Keeps policy consumer cut come d) :
    Keeps policy consumer cut come { d with closed := true } := by
  refine h.onward ⟨rfl, rfl, rfl⟩ (Nat.le_refl _) ?_
  cases h.stands with
  | rests courses rests =>
    exact .rests courses
      { rests with activity := rests.activity.imp_right fun ended => ⟨ended.1, rfl, ended.2.2⟩ }
  | calls courses calls => exact .calls courses { calls with }
  | pauses courses pauses => exact .pauses courses { pauses with }

theorem takeUp (h : Keeps policy consumer cut come d) {batch : Batch} {queue : List Batch}
    (idle : d.activity = .idle) (waiting : d.queue = batch :: queue) :
    Keeps policy consumer cut come
      ({ d with queue }.offer d.now (Logs.ofBatch batch) d.policy.retries d.policy.backoff) := by
  refine h.onward ⟨rfl, rfl, rfl⟩ (by simp [answered, idle, offer]) ?_
  cases h.stands with
  | @rests done first past courses rests =>
    have calls : Calls policy consumer cut come done first past batch 0 d.now []
        ({ d with queue }.offer d.now (Logs.ofBatch batch) d.policy.retries d.policy.backoff) := by
      refine
        { activity := ?_, attempts := .once d.now, onTime := ?_, batches := ?_, calls := ?_, events := ?_ }
      · simp only [offer, h.samePolicy, h.sameConsumer, rests.calls, DeliveryPolicy.pauseAfter_zero,
          Nat.sub_zero, Nat.add_zero]
      · intro delay _
        exact Nat.le_add_right _ _
      · rw [rests.batches, waiting]
        rfl
      · simp only [offer, rests.calls, Nat.add_zero]
      · simp only [offer, rests.calls, rests.events, List.nil_append, Nat.add_zero]
    exact .calls courses calls
  | calls courses calls => cases idle.symm.trans calls.activity
  | pauses courses pauses => cases idle.symm.trans pauses.activity

theorem resumesAt_eq (h : Keeps policy consumer cut come d) {done : List Batch}
    {past sofar : List DeliveryEvent} {batch : Batch} {delay : Nat} {cause : Failure}
    (pauses : Pauses policy consumer cut come done first past batch k start delay cause sofar d) :
    (if d.draining then d.now
      else max d.now (start + delay + (policy.pauseAfter k).ceilMilliseconds)) =
      resumesAt policy cut first k (start + delay) := by
  rw [h.draining, resumesAt]
  cases hc : cut with
  | none =>
    rw [Option.isSome_none, if_neg Bool.false_ne_true, Nat.max_eq_right pauses.onTime, wokenAt?,
      Option.bind_none, Option.getD_none]
  | some c => rw [← hc, pauses.woken c hc, hc, Option.isSome_some, if_pos rfl, Option.getD_some]

theorem resume (h : Keeps policy consumer cut come d) {logs : Logs} {left wakeAt : Nat} {pause : Span}
    (pausing : d.activity = .pausing logs left pause wakeAt) :
    Keeps policy consumer cut come
      (d.offer (if d.draining then d.now else max d.now wakeAt) logs left pause) := by
  refine h.onward ⟨rfl, rfl, rfl⟩ (by simp [answered, pausing, offer]) ?_
  cases h.stands with
  | rests courses rests =>
    obtain idle | ⟨ended, -⟩ := rests.activity
    · cases pausing.symm.trans idle
    · cases pausing.symm.trans ended
  | calls courses calls => cases pausing.symm.trans calls.activity
  | @pauses _ first past batch k start delay cause sofar courses pauses =>
    cases pausing.symm.trans pauses.activity
    have resumes := h.resumesAt_eq pauses
    rw [resumes]
    refine .calls courses
      { activity := ?_
        attempts := .again pauses.attempts pauses.room pauses.failed pauses.inTime
        onTime := ?_
        batches := pauses.batches
        calls := ?_
        events := ?_ }
    · simp only [offer, h.sameConsumer, pauses.calls, Nat.add_assoc]
    · intro delay _
      exact Nat.le_add_right _ _
    · simp only [offer, pauses.calls, Nat.add_assoc]
    · simp only [offer, pauses.events, pauses.calls, List.append_assoc, Nat.add_assoc]

/-- Behind a failure the delivery goes on if it has attempts left and is not draining. -/
theorem afterFailure_eq (policy : DeliveryPolicy) (k now : Nat) (logs : Logs) (pause : Span)
    (draining : Bool) :
    afterFailure now logs (policy.retries - k) pause draining =
      if k + 1 < policy.attempts ∧ draining = false then
        .pausing logs (policy.retries - (k + 1)) pause.double (now + pause.ceilMilliseconds)
      else .idle := by
  by_cases room : k + 1 < policy.attempts
  · have left : policy.retries - k = policy.retries - (k + 1) + 1 := by
      rw [DeliveryPolicy.attempts] at room
      omega
    rw [left]
    cases draining <;> simp [afterFailure, room]
  · have left : policy.retries - k = 0 := by
      rw [DeliveryPolicy.attempts] at room
      omega
    rw [left, if_neg fun both => room both.1]
    rfl

section

variable {done : List Batch} {past sofar : List DeliveryEvent} {batch : Batch} {delay : Nat}

theorem accept (h : Keeps policy consumer cut come d)
    (courses : Courses policy consumer cut done first past)
    (calls : Calls policy consumer cut come done first past batch k start sofar d)
    (reply : consumer (first + k) (Logs.ofBatch batch) = ⟨some delay, .ok ()⟩) (left : Nat)
    (pause : Span) :
    Keeps policy consumer cut come
      (d.answer (start + delay) (Logs.ofBatch batch) left pause (first + k) (.ok ())) := by
  refine h.onward ⟨rfl, rfl, rfl⟩ (by rw [answered_answer]; exact calls.answered_le) ?_
  refine .rests (courses.batch batch (.accepted calls.attempts reply)) ⟨.inl rfl, ?_, calls.calls, ?_⟩
  · simp [Delivery.answer, calls.batches]
  · simp [Delivery.answer, calls.events]

theorem refuse (h : Keeps policy consumer cut come d)
    (courses : Courses policy consumer cut done first past)
    (calls : Calls policy consumer cut come done first past batch k start sofar d) {cause : Failure}
    (reply : consumer (first + k) (Logs.ofBatch batch) = ⟨some delay, .error cause⟩) :
    Keeps policy consumer cut come
      (d.answer (start + delay) (Logs.ofBatch batch) (policy.retries - k) (policy.pauseAfter k)
        (first + k) (.error cause)) := by
  refine h.onward ⟨rfl, rfl, rfl⟩ (by rw [answered_answer]; exact calls.answered_le) ?_
  by_cases goesOn : k + 1 < policy.attempts ∧ d.draining = false
  · have never : cut = none := by simpa [goesOn.2] using h.draining.symm
    have activity : afterFailure (start + delay) (Logs.ofBatch batch) (policy.retries - k)
        (policy.pauseAfter k) d.draining = .pausing (Logs.ofBatch batch) (policy.retries - (k + 1))
          (policy.pauseAfter (k + 1))
          (start + delay + (policy.pauseAfter k).ceilMilliseconds) := by
      rw [afterFailure_eq, if_pos goesOn, DeliveryPolicy.double_pauseAfter]
    refine .pauses courses
      { activity
        attempts := calls.attempts
        room := goesOn.1
        failed := reply
        inTime := by rw [never]; exact not_isLate_none _
        onTime := Nat.le_add_right _ _
        woken := fun c hc => by cases never.symm.trans hc
        batches := calls.batches
        calls := calls.calls
        events := ?_ }
    simp [Delivery.answer, calls.events]
  · have activity : afterFailure (start + delay) (Logs.ofBatch batch) (policy.retries - k)
        (policy.pauseAfter k) d.draining = .idle := by
      rw [afterFailure_eq, if_neg goesOn]
    have last : k + 1 = policy.attempts ∨ IsLate cut (first + k) := by
      by_cases room : k + 1 < policy.attempts
      · have draining : cut.isSome = true := by
          rw [← h.draining]
          simpa [room] using goesOn
        obtain ⟨c, hc⟩ := Option.isSome_iff_exists.1 draining
        exact .inr ⟨c, hc, calls.answered_eq ▸ h.since c hc⟩
      · have reached := calls.attempts.lt_attempts
        exact .inl (by omega)
    refine .rests (courses.batch batch (.givenUp calls.attempts reply last))
      ⟨.inl activity, ?_, calls.calls, ?_⟩
    · simp [Delivery.answer, calls.batches]
    · simp [Delivery.answer, calls.events]

end

theorem answer (h : Keeps policy consumer cut come d) {logs : Logs} {left call t : Nat} {pause : Span}
    {outcome : Except Failure Unit}
    (calling : d.activity = .calling logs left pause call (some t) outcome) :
    Keeps policy consumer cut come (d.answer (max d.now t) logs left pause call outcome) := by
  cases h.stands with
  | rests courses rests =>
    obtain idle | ⟨ended, -⟩ := rests.activity
    · cases calling.symm.trans idle
    · cases calling.symm.trans ended
  | pauses courses pauses => cases calling.symm.trans pauses.activity
  | @calls done first past batch k start sofar courses calls =>
    obtain ⟨rfl, rfl, rfl, rfl, answerAt, rfl⟩ := Activity.calling.inj
      (calling.symm.trans calls.activity)
    obtain ⟨delay, answers, rfl⟩ := Option.map_eq_some_iff.1 answerAt.symm
    rw [Nat.max_eq_right (calls.onTime delay answers)]
    cases outcome : (consumer (first + k) (Logs.ofBatch batch)).outcome with
    | ok accepted => exact h.accept courses calls (by rw [← answers, ← outcome]) _ _
    | error cause => exact h.refuse courses calls (by rw [← answers, ← outcome])

theorem cancel (h : Keeps policy consumer none come d) :
    Keeps policy consumer (some d) come { d with draining := true } where
  samePolicy := h.samePolicy
  sameConsumer := h.sameConsumer
  draining := rfl
  since c hc := by
    obtain rfl := Option.some.inj hc
    exact Nat.le_refl _
  stands := by
    cases h.stands with
    | @rests done first past courses rests =>
      have before := courses.cancel (Nat.le_of_eq rests.answered_eq.symm)
        (Nat.le_of_eq rests.calls.symm)
      exact .rests before { rests with }
    | @calls done first past batch k start sofar courses calls =>
      have answered := calls.answered_eq
      have attempts := calls.attempts.cancel (d := d) (by omega) (by rw [calls.calls]; omega)
      exact .calls (courses.cancel (by omega) (by rw [calls.calls]; omega))
        { calls with attempts }
    | @pauses done first past batch k start delay cause sofar courses pauses =>
      have answered := pauses.answered_eq
      have attempts := pauses.attempts.cancel (d := d) (by omega) (by rw [pauses.calls]; omega)
      refine .pauses (courses.cancel (by omega) (by rw [pauses.calls]; omega))
        { pauses with attempts, inTime := ?_, woken := ?_ }
      · exact not_isLate_of_lt (by omega)
      · intro c _
        simp [wokenAt?, pausedBehind?, pauses.activity, pauses.calls]

theorem finish (h : Keeps policy consumer cut come d) (idle : d.activity = .idle)
    (empty : d.queue = []) (closed : d.closed = true) :
    Keeps policy consumer cut come { d with activity := .ended } := by
  refine h.onward ⟨rfl, rfl, rfl⟩ (by simp [answered, idle]) ?_
  cases h.stands with
  | rests courses rests =>
    exact .rests courses { rests with activity := .inr ⟨rfl, closed, empty⟩ }
  | calls courses calls => cases idle.symm.trans calls.activity
  | pauses courses pauses => cases idle.symm.trans pauses.activity

theorem step (h : Keeps policy consumer cut come d) {limit : Option Nat}
    (next : d.next? limit = some d') : Keeps policy consumer cut come d' := by
  cases next_of_next? next with
  | takesUp idle waiting => exact h.takeUp idle waiting
  | ends idle empty closed => exact h.finish idle empty closed
  | answers calling => exact h.answer calling
  | resumes pausing => exact h.resume pausing

end Keeps

theorem Reaches.keeps {now : Nat} (history : Reaches { policy, consumer, now } come cut d) :
    Keeps policy consumer cut come d := by
  induction history with
  | start => exact .begin now
  | come batch opened before ih => exact ih.enqueue opened batch
  | step next before ih => exact ih.step next
  | wait quiet before ih => exact ih.wait quiet
  | close before ih => exact ih.close
  | cancel before ih => exact ih.cancel

/-- Where the consumer answers every call, nothing is left in the end. -/
theorem Reaches.delivers {now : Nat} (history : Reaches { policy, consumer, now } come cut d)
    (answers : ∀ call logs, (consumer call logs).delay ≠ none) :
    ∃ calls, Courses policy consumer cut come calls (d.run none).events := by
  have quiet := next?_run none d
  cases (history.run none).keeps.stands with
  | @rests done first past courses rests =>
    have empty : (d.run none).queue = [] := by
      obtain idle | ⟨-, -, empty⟩ := rests.activity
      · cases hq : (d.run none).queue with
        | nil => rfl
        | cons batch queue => simp [next?_of_idle _ idle hq, before] at quiet
      · exact empty
    have all : done = come := by rw [rests.batches, empty, List.append_nil]
    exact ⟨first, by rw [← all, rests.events]; exact courses⟩
  | @calls done first past batch k start sofar courses calls =>
    obtain ⟨delay, answered⟩ := Option.ne_none_iff_exists'.1 (answers (first + k) (Logs.ofBatch batch))
    have activity := calls.activity
    rw [answered, Option.map_some] at activity
    simp [next?_of_calling _ activity, before] at quiet
  | pauses courses pauses => simp [next?_of_pausing _ pauses.activity, before] at quiet

namespace Interrupted

def patient : DeliverySettings := { onError := .retry }

def sullen : Consumer := fun _ _ => ⟨some 5, .error ⟨"unavailable", []⟩⟩

def fresh : Delivery := { policy := .ofSettings patient, consumer := sullen, now := 0 }

def pausing : Delivery := { fresh with queue := [[{}]] }.elapse 400

end Interrupted

end Delivery

end LogIntake
