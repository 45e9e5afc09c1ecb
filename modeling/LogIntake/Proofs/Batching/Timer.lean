import LogIntake.Proofs.Batching.Conservation

/-!
The timer of a collector against the clock. Nothing stays in the buffer for longer than the interval,
and where a batch was cut before the timer was due, the timer waits for a whole interval again. One
inequality carries both: the deadline is never more than an interval behind an entry in the buffer.
-/
namespace LogIntake

namespace Batcher

variable {b b' : Batcher} {deadline : Nat}

theorem interval_ofSettings {s : BatchSettings} (h : ofSettings s = .ok b) :
    b.limits.interval = s.flushInterval.ceilMilliseconds := by
  unfold ofSettings BatchLimits.ofSettings at h
  split at h
  · cases h
  · split at h
    · cases h
    · obtain rfl := Except.ok.inj h
      rfl

/-- A timer that was due before the limit is due next within an interval from there. -/
theorem deadlineAfter_bounds (b : Batcher) {limit : Nat} (h : deadline < limit) :
    limit ≤ b.deadlineAfter limit deadline ∧
      b.deadlineAfter limit deadline < limit + b.limits.interval := by
  have hi := b.limits.interval_pos
  rw [deadlineAfter]
  generalize hk : limit - deadline + b.limits.interval - 1 = k
  have hdiv := Nat.div_add_mod k b.limits.interval
  have hmod := Nat.mod_lt k hi
  rw [Nat.mul_comm] at hdiv
  omega

theorem add_of_running (hp : b.phase = .running deadline) (now : Nat) (e : Entry) :
    b.add now e = .ok (some (b.buffer ++ [e]),
        { b with buffer := [], phase := .running (b.nextDeadline now) }) ∨
      b.add now e = .ok (none, { b with buffer := b.buffer ++ [e], phase := .running deadline }) := by
  simp only [add, hp]
  split
  · exact .inl rfl
  · exact .inr rfl

theorem flush_of_running (hp : b.phase = .running deadline) (now : Nat) :
    b.flush now = (some b.buffer, { b with buffer := [], phase := .running (b.nextDeadline now) }) ∨
      b.buffer = [] ∧ b.flush now = (none, b) := by
  by_cases empty : b.buffer = []
  · exact .inr ⟨empty, by simp [flush, hp, cut, empty]⟩
  · exact .inl (by simp [flush, hp, cut, empty, nextDeadline])

theorem elapse_of_running (hp : b.phase = .running deadline) (limit : Nat) :
    deadline < limit ∧ b.elapse limit = (b.cut.1.map fun batch => (deadline, batch),
        { b with buffer := [], phase := .running (b.deadlineAfter limit deadline) }) ∨
      limit ≤ deadline ∧ b.elapse limit = (none, b) := by
  by_cases due : deadline < limit
  · refine .inl ⟨due, ?_⟩
    rw [elapse_of_due hp due]
    by_cases empty : b.buffer = []
    · simp [cut, empty]
    · simp [cut, empty]
  · exact .inr ⟨Nat.le_of_not_lt due, elapse_of_not_due hp due⟩

end Batcher

namespace Collector

/-- A request at a point in time, and the time behind it. What has a time is served at the time of the
clock, and waiting lets the clock go on. Before it does, the timer is served whenever it is due; what is
due at the moment itself may be served at any point among the requests of that moment. -/
inductive Clocked (now : Nat) : Request → Nat → Prop
  | add (e : Entry) : Clocked now (.add now e) now
  | flush : Clocked now (.flush now) now
  | take : Clocked now .take now
  | wait {limit : Nat} (onward : now ≤ limit) : Clocked now (.wait limit) limit
  | due : Clocked now (.wait (now + 1)) now

inductive Timed : Nat → List Request → Nat → Prop
  | done (now : Nat) : Timed now [] now
  | next {now mid later : Nat} {request : Request} {rest : List Request}
      (first : Clocked now request mid) (after : Timed mid rest later) :
      Timed now (request :: rest) later

theorem Clocked.le {now later : Nat} {request : Request} (h : Clocked now request later) :
    now ≤ later := by
  cases h with
  | wait onward => exact onward
  | add | flush | take | due => exact Nat.le_refl _

def arrivals (requests : List Request) : List (Nat × Entry) :=
  requests.filterMap fun
    | .add now e => some (now, e)
    | _ => none

variable {interval now deadline : Nat} {came : List (Nat × Entry)} {c : Collector}

/-! ### What the clock and the deadline say of the buffer -/

/-- The timer is due at the deadline, at most an interval behind the clock. Of the entries that came, the
last ones are in the buffer, and the deadline is at most an interval behind each of them. -/
structure OnTime (interval now deadline : Nat) (came : List (Nat × Entry)) (c : Collector) : Prop where
  limits : c.batcher.limits.interval = interval
  phase : c.batcher.phase = .running deadline
  pending : now ≤ deadline
  near : deadline ≤ now + interval
  waiting : ∃ gone waiting, came = gone ++ waiting ∧
    c.departures.flatMap Departure.batch = gone.map Prod.snd ∧
    c.batcher.buffer = waiting.map Prod.snd ∧ ∀ x ∈ waiting, deadline ≤ x.1 + interval

namespace OnTime

/-- All that was in the buffer leaves it, with what comes at the same time. -/
theorem leave (h : OnTime interval now deadline came c) {more : List (Nat × Entry)} {later next : Nat}
    {d : Collector} (limits : d.batcher.limits = c.batcher.limits)
    (phase : d.batcher.phase = .running next) (pending : later ≤ next)
    (near : next ≤ later + interval) (empty : d.batcher.buffer = [])
    (departed : d.departures.flatMap Departure.batch =
      c.departures.flatMap Departure.batch ++ (c.batcher.buffer ++ more.map Prod.snd)) :
    OnTime interval later next (came ++ more) d where
  limits := limits ▸ h.limits
  phase := phase
  pending := pending
  near := near
  waiting := by
    obtain ⟨gone, waiting, hcame, hgone, hwaiting, -⟩ := h.waiting
    refine ⟨came ++ more, [], (List.append_nil _).symm, ?_, empty, by simp⟩
    rw [departed, hgone, hwaiting, hcame, List.map_append, List.map_append, List.append_assoc]

theorem goOn (h : OnTime interval now deadline came c) {later : Nat} (onward : now ≤ later)
    (pending : later ≤ deadline) : OnTime interval later deadline came c where
  limits := h.limits
  phase := h.phase
  pending := pending
  near := Nat.le_trans h.near (Nat.add_le_add_right onward interval)
  waiting := h.waiting

theorem add (h : OnTime interval now deadline came c) (callback : Callback) (e : Entry) :
    ∃ next, OnTime interval now next (came ++ [(now, e)]) (c.serve callback (.add now e)).2 := by
  obtain full | joins := Batcher.add_of_running h.phase now e
  · refine ⟨now + interval, ?_⟩
    simp only [Collector.serve, full]
    refine h.leave rfl ?_ (Nat.le_add_right _ _) (Nat.le_refl _) rfl ?_
    · simp [give, Batcher.nextDeadline, h.limits]
    · simp [give, Departure.batch]
  · refine ⟨deadline, ?_⟩
    simp only [Collector.serve, joins]
    obtain ⟨gone, waiting, hcame, hgone, hwaiting, young⟩ := h.waiting
    refine ⟨h.limits, rfl, h.pending, h.near, gone, waiting ++ [(now, e)], ?_, hgone, ?_, ?_⟩
    · rw [hcame, List.append_assoc]
    · simp [give, hwaiting]
    · intro x hx
      obtain old | new := List.mem_append.1 hx
      · exact young x old
      · obtain rfl := List.mem_singleton.1 new
        exact h.near

theorem flush (h : OnTime interval now deadline came c) (callback : Callback) :
    ∃ next, OnTime interval now next came (c.serve callback (.flush now)).2 := by
  obtain taken | ⟨-, nothing⟩ := Batcher.flush_of_running h.phase now
  · refine ⟨now + interval, ?_⟩
    simp only [Collector.serve, taken]
    rw [← List.append_nil came]
    refine h.leave rfl ?_ (Nat.le_add_right _ _) (Nat.le_refl _) rfl ?_
    · simp [give, Batcher.nextDeadline, h.limits]
    · simp [give, Departure.batch]
  · refine ⟨deadline, ?_⟩
    simp only [Collector.serve, nothing]
    exact h

theorem take (h : OnTime interval now deadline came c) (callback : Callback) :
    OnTime interval now deadline came (c.serve callback .take).2 := by
  rw [← List.append_nil came]
  refine h.leave rfl h.phase h.pending h.near rfl ?_
  simp [Collector.serve, Batcher.take, Departure.batch]

theorem wait (h : OnTime interval now deadline came c) (callback : Callback) {limit later : Nat}
    (onward : now ≤ later) (reached : later ≤ limit) (notBeyond : limit ≤ later + 1) :
    ∃ next, OnTime interval later next came (c.serve callback (.wait limit)).2 := by
  obtain ⟨due, served⟩ | ⟨notYet, nothing⟩ := Batcher.elapse_of_running h.phase limit
  · have bounds := c.batcher.deadlineAfter_bounds due
    rw [h.limits] at bounds
    refine ⟨c.batcher.deadlineAfter limit deadline, ?_⟩
    simp only [Collector.serve, served]
    rw [← List.append_nil came]
    refine h.leave (by simp) (by simp) (by omega) (by omega) (by simp) ?_
    by_cases empty : c.batcher.buffer = []
    · simp [Batcher.cut, empty, give]
    · simp [Batcher.cut, empty, give, Departure.batch]
  · refine ⟨deadline, ?_⟩
    simp only [Collector.serve, nothing]
    exact h.goOn onward (Nat.le_trans reached notYet)

theorem serve (h : OnTime interval now deadline came c) (callback : Callback) {request : Request}
    {later : Nat} (clocked : Clocked now request later) :
    ∃ next, OnTime interval later next (came ++ arrivals [request]) (c.serve callback request).2 := by
  cases clocked with
  | add e => exact h.add callback e
  | flush => simpa [arrivals] using h.flush callback
  | take => simpa [arrivals] using ⟨deadline, h.take callback⟩
  | wait onward => simpa [arrivals] using h.wait callback onward (Nat.le_refl _) (Nat.le_succ _)
  | due => simpa [arrivals] using h.wait callback (Nat.le_refl _) (Nat.le_succ _) (Nat.le_refl _)

theorem run (h : OnTime interval now deadline came c) (callback : Callback) {requests : List Request}
    {later : Nat} (timed : Timed now requests later) :
    ∃ next, OnTime interval later next (came ++ arrivals requests) (c.run callback requests) := by
  induction timed generalizing c came deadline with
  | done now => exact ⟨deadline, by simpa [arrivals, Collector.run] using h⟩
  | @next now mid later request rest first after ih =>
    obtain ⟨next, served⟩ := h.serve callback first
    have split : arrivals (request :: rest) = arrivals [request] ++ arrivals rest :=
      List.filterMap_append (l := [request])
    rw [split, ← List.append_assoc]
    exact ih served

end OnTime

theorem onTime_start {b started : Batcher} (fresh : b.buffer = []) (start : b.start now = .ok started) :
    OnTime b.limits.interval now (now + b.limits.interval) [] { batcher := started } := by
  obtain ⟨-, rfl⟩ := Batcher.start_eq_ok start
  exact ⟨rfl, rfl, Nat.le_add_right _ _, Nat.le_refl _, [], [], rfl, rfl, fresh, by simp⟩

/-! ### When the timer cuts -/

/-- Whatever the timer cut among some departures, it cut no sooner than at a time. -/
def TicksFrom (time : Nat) (departures : List Departure) : Prop :=
  ∀ t limit batch outcome, .given t (.wait limit) batch outcome ∈ departures → time ≤ t

/-- The timer runs and is due no sooner than at a time. -/
structure Quiet (interval time : Nat) (c : Collector) : Prop where
  limits : c.batcher.limits.interval = interval
  due : ∃ deadline, c.batcher.phase = .running deadline ∧ time ≤ deadline

namespace Quiet

variable {time : Nat}

/-- A tick comes when the timer is due, and the timer is due again later. -/
theorem wait (h : Quiet interval time c) (callback : Callback) (limit : Nat) :
    Quiet interval time (c.serve callback (.wait limit)).2 ∧ ∃ since,
      (c.serve callback (.wait limit)).2.departures = c.departures ++ since ∧ TicksFrom time since := by
  obtain ⟨deadline, phase, notBefore⟩ := h.due
  obtain ⟨due, served⟩ | ⟨-, nothing⟩ := Batcher.elapse_of_running phase limit
  · have bounds := c.batcher.deadlineAfter_bounds due
    have quiet : Quiet interval time (c.serve callback (.wait limit)).2 := by
      simp only [Collector.serve, served]
      exact ⟨by simpa using h.limits, c.batcher.deadlineAfter limit deadline, by simp, by omega⟩
    refine ⟨quiet, ?_⟩
    simp only [Collector.serve, served]
    by_cases empty : c.batcher.buffer = []
    · exact ⟨[], by simp [Batcher.cut, empty, give], by simp [TicksFrom]⟩
    · refine ⟨[.given deadline (.wait limit) c.batcher.buffer (callback c.calls c.batcher.buffer)], ?_, ?_⟩
      · simp [Batcher.cut, empty, give]
      · simp only [TicksFrom, List.mem_singleton, Departure.given.injEq]
        rintro t limit batch outcome ⟨rfl, -⟩
        exact notBefore
  · simp only [Collector.serve, nothing]
    exact ⟨h, [], by simp [give], by simp [TicksFrom]⟩

theorem serve (h : Quiet interval time c) (callback : Callback) {request : Request} {later : Nat}
    (clocked : Clocked now request later) (near : time ≤ now + interval) :
    Quiet interval time (c.serve callback request).2 ∧ ∃ since,
      (c.serve callback request).2.departures = c.departures ++ since ∧ TicksFrom time since := by
  obtain ⟨deadline, phase, notBefore⟩ := h.due
  cases clocked with
  | add e =>
    obtain full | joins := Batcher.add_of_running phase now e
    · simp only [Collector.serve, full]
      refine ⟨⟨h.limits, now + interval, ?_, near⟩, [_], rfl, by simp [TicksFrom]⟩
      simp [give, Batcher.nextDeadline, h.limits]
    · simp only [Collector.serve, joins]
      exact ⟨⟨h.limits, deadline, rfl, notBefore⟩, [], by simp [give], by simp [TicksFrom]⟩
  | flush =>
    obtain taken | ⟨-, nothing⟩ := Batcher.flush_of_running phase now
    · simp only [Collector.serve, taken]
      refine ⟨⟨h.limits, now + interval, ?_, near⟩, [_], rfl, by simp [TicksFrom]⟩
      simp [give, Batcher.nextDeadline, h.limits]
    · simp only [Collector.serve, nothing]
      exact ⟨h, [], by simp [give], by simp [TicksFrom]⟩
  | take => exact ⟨⟨h.limits, deadline, phase, notBefore⟩, [_], rfl, by simp [TicksFrom]⟩
  | wait | due => exact h.wait callback _

theorem run (h : Quiet interval time c) (callback : Callback) {requests : List Request} {later : Nat}
    (timed : Timed now requests later) (near : time ≤ now + interval) : ∃ since,
      (c.run callback requests).departures = c.departures ++ since ∧ TicksFrom time since := by
  induction timed generalizing c with
  | done now => exact ⟨[], (List.append_nil _).symm, by simp [TicksFrom]⟩
  | next first after ih =>
    obtain ⟨quiet, since, served, ticks⟩ := h.serve callback first near
    obtain ⟨more, ran, ticks'⟩ := ih quiet (Nat.le_trans near (Nat.add_le_add_right first.le interval))
    refine ⟨since ++ more, ?_, ?_⟩
    · rw [Collector.run, ran, served, List.append_assoc]
    · intro t limit batch outcome mem
      exact (List.mem_append.1 mem).elim (ticks t limit batch outcome) (ticks' t limit batch outcome)

end Quiet

/-- A batch that is cut on demand, or because it is full, makes the timer start again. -/
theorem quiet_of_cut (h : OnTime interval now deadline came c) (callback : Callback) {request : Request}
    (kind : request = .flush now ∨ ∃ e, request = .add now e) {batch : Batch}
    {outcome : Except Failure Unit} (given : (c.serve callback request).2.departures =
      c.departures ++ [.given now request batch outcome]) :
    Quiet interval (now + interval) (c.serve callback request).2 := by
  obtain rfl | ⟨e, rfl⟩ := kind
  · obtain taken | ⟨-, nothing⟩ := Batcher.flush_of_running h.phase now
    · simp only [serve, taken]
      exact ⟨h.limits, now + interval, by simp [give, Batcher.nextDeadline, h.limits], Nat.le_refl _⟩
    · simp [serve, nothing, give] at given
  · obtain full | joins := Batcher.add_of_running h.phase now e
    · simp only [serve, full]
      exact ⟨h.limits, now + interval, by simp [give, Batcher.nextDeadline, h.limits], Nat.le_refl _⟩
    · simp [serve, joins, give] at given

theorem serve_wait_of_empty (callback : Callback) (empty : c.batcher.buffer = []) (limit : Nat) :
    (c.serve callback (.wait limit)).2.departures = c.departures ∧
      (c.serve callback (.wait limit)).2.calls = c.calls := by
  have nothing : (c.batcher.elapse limit).1 = none := by
    rw [Batcher.elapse]
    split
    · split
      · simp [Batcher.cut, empty]
      · rfl
    · rfl
  simp only [serve, nothing]
  exact ⟨rfl, rfl⟩

/-- Between start and stop, and whatever is requested at whatever times: an entry that came at some time
is in the buffer for an interval at most. The timer is due within an interval. Behind a batch that was
cut before the timer was due, on demand or because it was full, the timer cuts none for a whole interval.
And where there is nothing in the buffer, the timer gives nothing to the callback. -/
theorem timer_keeps_interval {s : BatchSettings} {b : Batcher} (valid : Batcher.ofSettings s = .ok b)
    (callback : Callback) {t₀ now : Nat} {requests : List Request} (timed : Timed t₀ requests now) :
    let interval := s.flushInterval.ceilMilliseconds
    let c := run callback (.start (some t₀) :: requests) { batcher := b }
    (∃ gone waiting, arrivals requests = gone ++ waiting ∧
      c.departures.flatMap Departure.batch = gone.map Prod.snd ∧
      c.batcher.buffer = waiting.map Prod.snd ∧ ∀ x ∈ waiting, now ≤ x.1 + interval) ∧
    (∃ deadline, c.batcher.phase = .running deadline ∧ now ≤ deadline ∧ deadline ≤ now + interval ∧
      ∀ request batch outcome, (request = .flush now ∨ ∃ e, request = .add now e) → now < deadline →
        let cut := (c.serve callback request).2
        cut.departures = c.departures ++ [.given now request batch outcome] →
        ∀ more later, Timed now more later → ∃ since,
          (run callback more cut).departures = cut.departures ++ since ∧
            TicksFrom (now + interval) since) ∧
    (c.batcher.buffer = [] → ∀ limit, (c.serve callback (.wait limit)).2.departures = c.departures ∧
      (c.serve callback (.wait limit)).2.calls = c.calls) := by
  have interval_eq : b.limits.interval = s.flushInterval.ceilMilliseconds := Batcher.interval_ofSettings valid
  obtain ⟨-, created, fresh⟩ := Batcher.ofSettings_eq_ok valid
  have start : b.start t₀ = .ok { b with phase := .running (b.nextDeadline t₀) } := by
    simp only [Batcher.start, created]
  have started := onTime_start fresh start
  rw [interval_eq] at started
  obtain ⟨deadline, onTime⟩ := started.run callback timed
  have same : run callback (.start (some t₀) :: requests) { batcher := b } =
      run callback requests { batcher := { b with phase := .running (b.nextDeadline t₀) } } := by
    simp only [run, serve, start]
  rw [same]
  refine ⟨?_, ⟨deadline, onTime.phase, onTime.pending, onTime.near, ?_⟩,
    fun empty => serve_wait_of_empty callback empty⟩
  · obtain ⟨gone, waiting, came, left, stayed, young⟩ := onTime.waiting
    exact ⟨gone, waiting, came, left, stayed,
      fun x hx => Nat.le_trans onTime.pending (young x hx)⟩
  · intro request batch outcome kind _ cut given more later further
    exact (quiet_of_cut onTime callback kind given).run callback further (Nat.le_refl _)

/-- One entry waits for the timer, one for a flush, and one comes behind it. -/
def slowRequests : List Request :=
  [.wait 10, .add 10 {}, .wait 150, .add 150 { severity := .error }, .flush 150, .wait 160, .add 160 {}]

def slowRun : Collector :=
  run (fun _ _ => .ok ()) (.start (some 0) :: slowRequests) { batcher := { limits := Batcher.pairs } }

theorem slowRun_keeps_interval :
    Batcher.ofSettings { maxFlushCount := 2 } = .ok { limits := Batcher.pairs } ∧
    Timed 0 slowRequests 160 ∧
    (∃ gone waiting, arrivals slowRequests = gone ++ waiting ∧
      slowRun.departures.flatMap Departure.batch = gone.map Prod.snd ∧
      slowRun.batcher.buffer = waiting.map Prod.snd ∧ ∀ x ∈ waiting, 160 ≤ x.1 + 100) ∧
    slowRun.batcher.phase = .running 250 ∧
    ∀ more later, Timed 160 more later → ∃ since,
      (run (fun _ _ => .ok ()) more (slowRun.serve (fun _ _ => .ok ()) (.flush 160)).2).departures =
        (slowRun.serve (fun _ _ => .ok ()) (.flush 160)).2.departures ++ since ∧ TicksFrom 260 since := by
  have valid : Batcher.ofSettings { maxFlushCount := 2 } = .ok { limits := Batcher.pairs } := rfl
  have timed : Timed 0 slowRequests 160 :=
    .next (.wait (by decide)) (.next (.add {}) (.next (.wait (by decide))
      (.next (.add { severity := .error }) (.next .flush (.next (.wait (by decide))
        (.next (.add {}) (.done 160)))))))
  obtain ⟨stays, ⟨deadline, phase, -, -, cuts⟩, -⟩ := timer_keeps_interval valid (fun _ _ => .ok ()) timed
  have pending : slowRun.batcher.phase = .running 250 := rfl
  obtain rfl : deadline = 250 := Batcher.Phase.running.inj (phase.symm.trans pending)
  exact ⟨valid, timed, stays, pending, cuts (.flush 160) [{}] (.ok ()) (.inl rfl) (by decide) rfl⟩

end Collector

end LogIntake
