import LogIntake.Proofs.Receiver.History
import LogIntake.Proofs.Receiver.Surfacing

/-!
How long a shutdown takes. The pipeline and the delivery each have the timeout, whatever tasks, senders and
the consumer do, and once the receiver is down the consumer is left alone. What the delivery would have
come to without a limit says whether the shutdown reports it.
-/
namespace LogIntake

namespace Batcher

variable {b : Batcher} {t : Nat}

theorem time_le_of_elapse {limit : Nat} (reached : limit ≤ t) : ∀ x ∈ (b.elapse limit).1, x.1 ≤ t := by
  intro x hx
  rw [elapse] at hx
  split at hx
  · next deadline hp =>
    split at hx
    · next due =>
      obtain ⟨batch, -, rfl⟩ := Option.map_eq_some_iff.1 hx
      exact Nat.le_trans (Nat.le_of_lt due) reached
    · cases hx
  · cases hx

theorem time_le_of_feed {entries : List (Nat × Entry)} (times : ∀ x ∈ entries, x.1 ≤ t) :
    ∀ x ∈ (b.feed entries).1, x.1 ≤ t := by
  induction entries generalizing b with
  | nil => simp [feed]
  | cons entry rest ih =>
    obtain ⟨now, e⟩ := entry
    obtain ⟨first, others⟩ := List.forall_mem_cons.1 times
    have ticked : ∀ x ∈ (b.elapse now).1.toList, x.1 ≤ t :=
      fun x hx => time_le_of_elapse first x (Option.mem_toList.1 hx)
    simp only [feed]
    split
    · exact List.forall_mem_append.2 ⟨ticked, ih others⟩
    · next full b' added =>
      have filled : ∀ x ∈ full.toList.map fun batch => (now, batch), x.1 ≤ t := by
        intro x hx
        obtain ⟨batch, -, rfl⟩ := List.mem_map.1 hx
        exact first
      exact List.forall_mem_append.2 ⟨List.forall_mem_append.2 ⟨ticked, filled⟩, ih others⟩

end Batcher

namespace Receiver

variable {σ : Type}

/-! ### The end of a delivery -/

section

variable {left : List (Nat × Entry)} {now t : Nat} {b : Batcher} {d : Delivery}

/-- What leaves a pipeline up to a time is in batches that come up to that time. -/
theorem times_of_left {limit : Nat} (times : ∀ x ∈ left, x.1 ≤ t) (reached : limit ≤ t) :
    ∀ x ∈ (b.feed left).1 ++ ((b.feed left).2.elapse limit).1.toList, x.1 ≤ t :=
  List.forall_mem_append.2 ⟨Batcher.time_le_of_feed times,
    fun x hx => Batcher.time_le_of_elapse reached x (Option.mem_toList.1 hx)⟩

/-- While batches come up to a time, the delivery does not go past it. -/
theorem dated_of_feed {batches : List (Nat × Batch)} {limit : Nat} (times : ∀ x ∈ batches, x.1 ≤ t)
    (now : d.now ≤ t) (dated : ∀ e ∈ d.events, e.time ≤ t) (reached : limit ≤ t) :
    ((d.feed batches).elapse limit).now ≤ t ∧
      ∀ e ∈ ((d.feed batches).elapse limit).events, e.time ≤ t := by
  have clock := Delivery.now_elapse_le (Delivery.now_feed_le now times) reached
  have ages := (Delivery.Ages.feed batches d).trans (.elapse limit _)
  exact ⟨clock, ages.dated dated clock⟩

theorem now_remaining (times : ∀ x ∈ left, x.1 ≤ now) (before : d.now ≤ now) :
    (remaining left now b d).2.now = now :=
  Delivery.now_settle (Delivery.now_feed_le before (times_of_left times (Nat.le_refl now)))

theorem ages_remaining (left : List (Nat × Entry)) (now : Nat) (b : Batcher) (d : Delivery) :
    Delivery.Ages d (remaining left now b d).2 := by
  have fed := Delivery.Ages.feed ((b.feed left).1 ++ ((b.feed left).2.elapse now).1.toList) d
  exact (fed.trans (.settle now _)).trans (.of_eq (Nat.le_refl _) rfl)

end

/-! ### The clocks of a receiver -/

/-- The pipeline is at a time, the delivery is not beyond it, and nothing is dated later. -/
structure Abreast (now : Nat) (p : Running σ) (d : Delivery) : Prop where
  pipeline : p.now = now
  left : ∀ x ∈ p.output.left, x.1 ≤ now
  delivery : d.now ≤ now
  events : ∀ e ∈ d.events, e.time ≤ now

/-- The parts of a receiver that runs are on one clock, and nothing is dated later than it shows. -/
structure OnClock (timeout : Span) (r : Receiver σ) : Prop where
  timeout : r.shutdownTimeout = timeout
  recorded : ∀ e ∈ r.record.deliveries, e.time ≤ r.now
  running : ∀ p d, r.phase = .running p d → Abreast r.now p d

section

variable {now : Nat} {p q : Running σ} {d : Delivery} {timeout : Span} {r r' : Receiver σ}
  {b : Batcher}

theorem Abreast.ages (h : Abreast now p d) (k : p.Ages q) : now ≤ q.now ∧ Abreast q.now q d := by
  have onward : now ≤ q.now := h.pipeline ▸ k.onward
  have left := k.dated (by rw [h.pipeline]; exact h.left)
  exact ⟨onward, rfl, left, Nat.le_trans h.delivery onward,
    fun e he => Nat.le_trans (h.events e he) onward⟩

namespace OnClock

variable [Operator σ]

theorem work {asked : List Failure} (h : OnClock timeout r) (running : r.phase = .running p d)
    (steps : p.Reaches asked q) :
    OnClock timeout { r with now := q.now, phase := .running q d } := by
  obtain ⟨onward, abreast⟩ := (h.running p d running).ages (.reaches steps)
  refine ⟨h.timeout, fun e he => Nat.le_trans (h.recorded e he) onward, ?_⟩
  rintro p' d' ⟨⟩
  exact abreast

theorem send (h : OnClock timeout r) (e : Entry) : OnClock timeout (r.send e).2 := by
  rw [Receiver.send]
  split
  · next p d running =>
    have sent := h.work running (.send e .start)
    rw [Running.now_send, (h.running p d running).pipeline] at sent
    exact sent
  · exact h

theorem elapse (h : OnClock timeout r) (limit : Nat) : OnClock timeout (r.elapse limit) := by
  have earlier : ∀ {t : Nat}, t ≤ r.now → t ≤ max r.now limit :=
    fun before => Nat.le_trans before (Nat.le_max_left _ _)
  have recorded : ∀ e ∈ r.record.deliveries, e.time ≤ max r.now limit :=
    fun e he => earlier (h.recorded e he)
  rw [Receiver.elapse]
  split
  · next p d running =>
    have before := h.running p d running
    obtain ⟨-, worked⟩ := before.ages (.elapse limit p)
    have clock : (p.elapse limit).now = max r.now limit := by rw [Running.now_elapse, before.pipeline]
    rw [clock] at worked
    obtain ⟨now, dated⟩ := dated_of_feed (d := d)
      (times_of_left (b := r.batcher) worked.left (Nat.le_max_right r.now limit))
      (earlier before.delivery) (fun e he => earlier (before.events e he)) (Nat.le_max_right r.now limit)
    refine ⟨h.timeout, List.forall_mem_append.2 ⟨recorded, dated⟩, ?_⟩
    rintro p' d' ⟨⟩
    exact ⟨clock, by simp, now, by simp⟩
  · next idle =>
    exact ⟨h.timeout, recorded, fun p d running => absurd running (idle p d)⟩

omit [Operator σ] in
theorem rolledBack (h : OnClock timeout r) (p : Running σ) (b : Batcher) :
    OnClock timeout (r.rolledBack p b) := by
  have ages : Delivery.Ages r.newDelivery (r.lastDelivery p b) :=
    (ages_remaining p.output.left p.now b r.newDelivery).trans (.run none _)
  have onward : r.now ≤ (r.lastDelivery p b).now := ages.onward
  have none : ∀ e ∈ r.newDelivery.events, e.time ≤ (r.lastDelivery p b).now := by simp [newDelivery]
  have dated := ages.dated none (Nat.le_refl _)
  refine ⟨h.timeout, List.forall_mem_append.2 ⟨?_, dated⟩, fun p d running => by cases running⟩
  exact fun e he => Nat.le_trans (h.recorded e he) onward

theorem start {answer : Except Failure Unit} (h : OnClock timeout r) (starts : r.Starts answer r') :
    OnClock timeout r' := by
  cases starts with
  | alone =>
    cases created : r.phase with
    | created pipeline =>
      cases batching : r.batcher.start r.now with
      | error cause =>
        have refused : r.start.2 = { r with phase := .stopped } := by
          simp only [Receiver.start, created, batching]
        rw [refused]
        exact ⟨h.timeout, h.recorded, fun p d running => by cases running⟩
      | ok b =>
        cases opened : Running.start r.now pipeline with
        | error f =>
          rw [start_of_error created batching opened]
          exact h.rolledBack _ b
        | ok p =>
          rw [start_of_ok created batching opened]
          refine ⟨h.timeout, h.recorded, ?_⟩
          rintro p' d' ⟨⟩
          have left : p.output.left = [] := List.map_eq_nil_iff.1 (Running.isFresh_of_start opened).left
          exact ⟨Running.now_of_start opened, by simp [left], Nat.le_refl _, by simp [newDelivery]⟩
    | running p d =>
      rw [start_of_not_created (by simp [created])]
      exact h
    | stopped =>
      rw [start_of_not_created (by simp [created])]
      exact h
  | amidst => exact h.rolledBack _ _

end OnClock

/-- The pipeline stops in time, and the delivery does not go past its limit. -/
structure EndsInTime (timeout now : Nat) (e : Ending σ) : Prop where
  onward : now ≤ e.halted.now
  stops : e.halted.now ≤ now + timeout
  limit : e.limit ≤ e.halted.now + timeout
  delivers : e.halted.now ≤ e.delivery.now
  within : e.delivery.now ≤ e.limit
  dated : ∀ x ∈ e.delivery.events, x.time ≤ e.delivery.now

variable [Operator σ]

theorem Abreast.endsInTime (h : Abreast r.now p d) (senderHeld : Bool) (visits : List Visit) :
    EndsInTime r.shutdownTimeout.ceilMilliseconds r.now (r.ending senderHeld visits p d) := by
  obtain ⟨onward, stopped⟩ := h.ages (.haltWithin r.shutdownTimeout senderHeld visits p)
  have stops := Running.now_haltWithin_le r.shutdownTimeout senderHeld visits p
  rw [h.pipeline] at stops
  have begins : (r.deliveryAtStop senderHeld visits p d).now =
      (r.ending senderHeld visits p d).halted.now := now_remaining stopped.left stopped.delivery
  have ages : d.Ages (r.deliveryAtStop senderHeld visits p d) := ages_remaining _ _ _ _
  have ran := Delivery.Ages.run (some (r.ending senderHeld visits p d).limit)
    (r.deliveryAtStop senderHeld visits p d)
  rw [← delivery_of_ending] at ran
  have delivers := begins ▸ ran.onward
  have early : (r.deliveryAtStop senderHeld visits p d).now ≤ (r.ending senderHeld visits p d).limit := by
    rw [begins]
    exact Nat.le_add_right _ _
  refine ⟨onward, stops, Nat.add_le_add_left (patience_le _ _) _, delivers, ?_, ?_⟩
  · rw [delivery_of_ending]
    exact Delivery.now_run_le early (Nat.le_succ _)
  · refine (ages.trans ran).dated (fun e he => ?_) (Nat.le_refl _)
    exact Nat.le_trans (h.events e he) (Nat.le_trans onward delivers)

namespace OnClock

theorem shutdown_of_running (h : OnClock timeout r) (running : r.phase = .running p d) (senderHeld : Bool)
    (visits : List Visit) : OnClock timeout (r.shutdown senderHeld visits).2 ∧
      r.now ≤ (r.shutdown senderHeld visits).2.now ∧
      (r.shutdown senderHeld visits).2.now ≤ r.now + 2 * r.shutdownTimeout.ceilMilliseconds := by
  obtain ⟨onward, stops, limit, delivers, within, dated⟩ :=
    (h.running p d running).endsInTime senderHeld visits
  rw [Receiver.shutdown_of_running running]
  generalize r.ending senderHeld visits p d = e at onward stops limit delivers within dated ⊢
  have clock : e.delivery.now ≤ (r.conclude e).2.now ∧ (r.conclude e).2.now ≤ e.limit := by
    rw [now_conclude]
    split
    · exact ⟨Nat.le_refl _, within⟩
    · exact ⟨within, Nat.le_refl _⟩
  refine ⟨⟨h.timeout, ?_, fun p d running => by cases running⟩, by omega, by omega⟩
  rw [deliveries_conclude]
  refine List.forall_mem_append.2 ⟨fun e he => ?_, fun e he => Nat.le_trans (dated e he) clock.1⟩
  have before := h.recorded e he
  omega

theorem shutdown (h : OnClock timeout r) (senderHeld : Bool) (visits : List Visit) :
    OnClock timeout (r.shutdown senderHeld visits).2 := by
  by_cases running : r.isRunning = true
  · obtain ⟨p, d, phase⟩ := isRunning_eq_true_iff.1 running
    exact (h.shutdown_of_running phase senderHeld visits).1
  · rw [shutdown_of_not_running (Bool.eq_false_iff.2 running)]
    exact h

end OnClock

theorem Hosted.onClock {r₀ : Receiver σ} {calls : List HostCall} (h : OnClock timeout r₀)
    (history : r₀.Hosted calls r) : OnClock timeout r := by
  induction history with
  | new => exact h
  | call answers before ih =>
    cases answers with
    | start starts => exact ih.start starts
    | shutdown senderHeld visits => exact ih.shutdown senderHeld visits
    | isRunning => exact ih
    | hasSender => exact ih
  | send e before ih => exact ih.send e
  | work running steps before ih => exact ih.work running steps
  | elapse limit before ih => exact ih.elapse limit

omit [Operator σ] in
theorem onClock_ofSettings {registry : Registry σ} {load : String → Except LoadError TemplateSet}
    {consumer : Consumer} {s : Settings} (built : ofSettings registry load consumer s = .ok r) :
    OnClock s.shutdownTimeout r := by
  obtain ⟨pipeline, batcher, -, rfl⟩ := eq_of_ofSettings built
  exact ⟨rfl, by simp, fun p d running => by cases running⟩

end

/-! ### The bound -/

variable [Operator σ]

/-- The shutdown fails with a delivery that is cut off, and otherwise ends as the pipeline does. -/
theorem shutdown_outcome {r : Receiver σ} {p : Running σ} {d : Delivery} (running : r.phase = .running p d)
    (abreast : Abreast r.now p d) (senderHeld : Bool) (visits : List Visit) :
    let stopped := p.haltWithin r.shutdownTimeout senderHeld visits
    let limit := stopped.2.now + patience stopped.2.now r.shutdownTimeout
    let whole := (r.deliveryAtStop senderHeld visits p d).run none
    (whole.isOver = false ∨ limit < whole.now → ∃ cause, (r.shutdown senderHeld visits).1 = .error cause) ∧
      (whole.isOver = true → whole.now < limit → (r.shutdown senderHeld visits).1 = stopped.1) := by
  intro stopped limit whole
  have within : (r.ending senderHeld visits p d).delivery.now ≤ limit :=
    (abreast.endsInTime senderHeld visits).within
  have delivery : (r.ending senderHeld visits p d).delivery =
      (r.deliveryAtStop senderHeld visits p d).run (some limit) := delivery_of_ending senderHeld visits p d r
  rw [shutdown_of_running running, answer_conclude]
  constructor
  · intro late
    have cutOff : (r.ending senderHeld visits p d).delivery.isOver = false := by
      refine Bool.eq_false_iff.2 fun atEnd => ?_
      -- a delivery that came to its end was not cut off, so it is the whole one
      have same : whole = (r.ending senderHeld visits p d).delivery := by
        rw [delivery] at atEnd ⊢
        exact Delivery.run_none_of_isOver atEnd
      rw [same, atEnd] at late
      obtain never | after := late
      · cases never
      · exact absurd within (Nat.not_le.2 after)
    rw [cutOff]
    cases (r.ending senderHeld visits p d).outcome with
    | ok done => exact ⟨_, rfl⟩
    | error cause => exact ⟨cause, rfl⟩
  · intro atEnd early
    have complete : (r.ending senderHeld visits p d).delivery.isOver = true := by
      rw [delivery]
      exact Delivery.isOver_run_of_lt atEnd early
    have outcome : (r.ending senderHeld visits p d).outcome = stopped.1 := rfl
    rw [complete, outcome]
    cases stopped.1 <;> rfl

/-- If the timeout is a whole number of milliseconds, the bound on a shutdown is exact. -/
theorem now_le_of_whole {now after : Nat} {timeout : Span} (whole : 1000000 ∣ timeout.nanoseconds)
    (within : after ≤ now + 2 * timeout.ceilMilliseconds) :
    after * 1000000 ≤ now * 1000000 + 2 * timeout.nanoseconds := by
  rw [← Span.ceilMilliseconds_mul whole]
  omega

/-- A shutdown ends within two timeouts, one for the pipeline and one for the delivery, whatever the tasks
do, whoever holds on to senders and sends meanwhile, and whether the consumer answers or not. Then the
receiver does not run, all calls of the consumer are in the past, and there will be no other, whatever the
host does. If the delivery, left to itself, would go on for longer than its timeout or for ever, the
shutdown fails; if it comes to its end sooner, the shutdown ends as the pipeline does. The clock counts
whole milliseconds, and a timeout is rounded up to them. A stop whose deadline the clock cannot show fails at
once, and a delivery whose limit it cannot show has thirty years. -/
theorem shutdown_is_bounded {registry : Registry σ} {load : String → Except LoadError TemplateSet}
    {consumer : Consumer} {s : Settings} {r₀ r : Receiver σ} {calls : List HostCall}
    (built : ofSettings registry load consumer s = .ok r₀) (history : r₀.Hosted calls r)
    (running : r.isRunning = true) (senderHeld : Bool) (visits : List Visit) :
    let timeout := s.shutdownTimeout.ceilMilliseconds
    let after := r.shutdown senderHeld visits
    (r.now ≤ after.2.now ∧ after.2.now ≤ r.now + 2 * timeout) ∧
    (1000000 ∣ s.shutdownTimeout.nanoseconds →
      after.2.now * 1000000 ≤ r.now * 1000000 + 2 * s.shutdownTimeout.nanoseconds) ∧
    after.2.isRunning = false ∧
    (∀ e ∈ after.2.record.deliveries, e.time ≤ after.2.now) ∧
    (∀ more later, after.2.Hosted more later →
      later.record.deliveries = after.2.record.deliveries) ∧
    ∃ p d, r.phase = .running p d ∧
      let stopped := p.haltWithin s.shutdownTimeout senderHeld visits
      let limit := stopped.2.now + patience stopped.2.now s.shutdownTimeout
      let whole := (r.deliveryAtStop senderHeld visits p d).run none
      stopped.2.now ≤ r.now + timeout ∧
      (whole.isOver = false ∨ limit < whole.now → ∃ cause, after.1 = .error cause) ∧
      (whole.isOver = true → whole.now < limit → after.1 = stopped.1) := by
  have onClock := history.onClock (onClock_ofSettings built)
  rw [← onClock.timeout]
  intro timeout after
  obtain ⟨p, d, phase⟩ := isRunning_eq_true_iff.1 running
  obtain ⟨down, notBefore, within⟩ := onClock.shutdown_of_running phase senderHeld visits
  have stops := Running.now_haltWithin_le r.shutdownTimeout senderHeld visits p
  rw [(onClock.running p d phase).pipeline] at stops
  have stopped : after.2.phase = .stopped := by
    rw [show after = _ from shutdown_of_running phase senderHeld visits, phase_conclude]
  have idle : after.2.isRunning = false := isRunning_eq_false_iff.2 (by simp [stopped])
  refine ⟨⟨notBefore, within⟩, fun whole => now_le_of_whole whole within, idle, down.recorded,
    fun more later further => ?_, p, d, phase, stops, ?_⟩
  · rw [further.still idle (.inl stopped)]
  · exact shutdown_outcome phase (onClock.running p d phase) senderHeld visits

end Receiver

/-- An operator whose task stays for a minute, whatever happens. -/
structure Loiterer

namespace Loiterer

instance : Operator Loiterer where
  start s := { operator := s, tasks := [.sleep 60000 (.finish (.ok ()))] }

def loitererType : OperatorType Loiterer := ⟨"loiterer", .intermediate, fun _ _ => .ok {}⟩

def settings : Settings where
  pipeline := [[("type", .leaf (.string "loiterer"))]]
  batch := { maxFlushCount := 2 }

def silent : Consumer := fun _ _ => { delay := none }

def fresh : Receiver Loiterer where
  phase := .created [⟨"loiterer", "loiterer", .intermediate, {}⟩]
  batcher := { limits := Batcher.pairs }
  policy := .ofSettings {}
  shutdownTimeout := .ofSeconds 10
  consumer := silent

def busy : Receiver Loiterer := (fresh.start.2.send {}).2

theorem busy_shutdown_is_bounded :
    Receiver.ofSettings (.ofTypes [loitererType]) (fun _ => .ok .empty) silent settings = .ok fresh ∧
    fresh.Hosted [.start (.ok ())] busy ∧ busy.isRunning = true ∧
    (busy.shutdown true).2.now ≤ busy.now + 2 * 10000 ∧
    (busy.shutdown true).2.isRunning = false ∧
    ∃ cause, (busy.shutdown true).1 = .error cause := by
  have built : Receiver.ofSettings (.ofTypes [loitererType]) (fun _ => .ok .empty) silent settings =
      .ok fresh := rfl
  have history : fresh.Hosted [.start (.ok ())] busy :=
    .send {} (.call (.start .alone) .new)
  have running : busy.isRunning = true := rfl
  obtain ⟨⟨-, within⟩, -, idle, -, -, p, d, phase, -, late, -⟩ :=
    Receiver.shutdown_is_bounded built history running true []
  refine ⟨built, history, running, within, idle, late (.inl ?_)⟩
  have state : ∃ p d, busy.phase = .running p d ∧
      ((busy.deliveryAtStop true [] p d).run none).isOver = false := ⟨_, _, rfl, by decide +kernel⟩
  obtain ⟨q, e, same, stuck⟩ := state
  obtain ⟨rfl, rfl⟩ := Receiver.Phase.running.inj (phase.symm.trans same)
  exact stuck

def instant : Span := { nanoseconds := 500000 }

def hasty : Receiver Loiterer := { fresh with shutdownTimeout := instant }

/-- Each of the two timeouts lasts for a whole millisecond, so that the shutdown takes two. -/
theorem hasty_shutdown_is_late :
    Receiver.ofSettings (.ofTypes [loitererType]) (fun _ => .ok .empty) silent
      { settings with shutdownTimeout := instant } = .ok hasty ∧
    hasty.Hosted [.start (.ok ())] (hasty.start.2.send {}).2 ∧
    (hasty.start.2.send {}).2.isRunning = true ∧
    (hasty.start.2.send {}).2.now * 1000000 + 2 * instant.nanoseconds <
      ((hasty.start.2.send {}).2.shutdown true).2.now * 1000000 := by
  have history : hasty.Hosted [.start (.ok ())] (hasty.start.2.send {}).2 :=
    .send {} (.call (.start .alone) .new)
  exact ⟨rfl, history, rfl, by decide +kernel⟩

end Loiterer

end LogIntake
