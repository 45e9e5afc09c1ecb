import LogIntake.Proofs.Batching.Cut
import LogIntake.Proofs.Receiver.EndToEnd
import LogIntake.Proofs.Receiver.History

/-!
The life of a receiver as its host sees it. A receiver is started once, with success or not, and it runs
from a successful start to the next shutdown; all other calls leave it as it is. A start that fails
delivers what has left the pipeline by then, and ends everything.
-/
namespace LogIntake

namespace Delivery

theorem closed_feed (batches : List (Nat × Batch)) (d : Delivery) : (d.feed batches).closed = d.closed := by
  induction batches generalizing d with
  | nil => rfl
  | cons arrival rest ih => exact (ih _).trans (closed_run _ d)

variable {policy : DeliveryPolicy} {consumer : Consumer} {cut : Option Delivery} {come : List Batch}

theorem Reaches.enqueue {d₀ d : Delivery} (history : d₀.Reaches come cut d) (opened : d.closed = false)
    (last : Option Batch) :
    d₀.Reaches (come ++ last.toList) cut { d with queue := d.queue ++ last.toList } := by
  cases last with
  | none =>
    rw [Option.toList_none, List.append_nil, List.append_nil]
    exact history
  | some batch => exact .come batch opened history

theorem Reaches.courses_of_isOver {d : Delivery} {now : Nat}
    (history : Reaches { policy, consumer, now } come cut d) (atEnd : d.isOver = true) :
    ∃ calls, Courses policy consumer cut come calls d.events := by
  have ended : d.activity = .ended := by
    rw [isOver] at atEnd
    split at atEnd
    · assumption
    · cases atEnd
  cases history.keeps.stands with
  | @rests done first past courses rests =>
    obtain idle | ⟨-, -, empty⟩ := rests.activity
    · cases ended.symm.trans idle
    · have all : done = come := by rw [rests.batches, empty, List.append_nil]
      exact ⟨first, by rw [← all, rests.events]; exact courses⟩
  | calls courses calls => cases ended.symm.trans calls.activity
  | pauses courses pauses => cases ended.symm.trans pauses.activity

theorem Courses.offered {calls : Nat} {events : List DeliveryEvent}
    (h : Courses policy consumer cut come calls events) :
    ∀ batch ∈ come, ∃ call t, .offered call t (Logs.ofBatch batch) ∈ events := by
  induction h with
  | nil => simp
  | @batch done calls n events more batch before delivered ih =>
    refine List.forall_mem_append.2 ⟨fun b hb => ?_, ?_⟩
    · obtain ⟨call, t, offered⟩ := ih b hb
      exact ⟨call, t, List.mem_append_left _ offered⟩
    · rintro b hb
      obtain rfl := List.mem_singleton.1 hb
      cases delivered with
      | accepted sofar accepts =>
        exact ⟨_, _, List.mem_append_right _ (List.mem_append_right _ List.mem_cons_self)⟩
      | givenUp sofar failed last =>
        exact ⟨_, _, List.mem_append_right _ (List.mem_append_right _ List.mem_cons_self)⟩

end Delivery

namespace Running

variable {σ : Type} [Operator σ] {r₀ r : Running σ}

theorem shuttingDown_close (r : Running σ) : r.close.shuttingDown = r.shuttingDown := by
  rw [close]
  split <;> rfl

theorem shuttingDown_digest (waiting : List Entry) (r : Running σ) :
    (r.digest waiting).shuttingDown = r.shuttingDown := by
  unfold digest
  dsimp only
  split
  · exact shuttingDown_close _
  · rfl

theorem Reaches.shuttingDown_eq {asked : List Failure} (history : r₀.Reaches asked r) :
    r.shuttingDown = r₀.shuttingDown := by
  induction history with
  | start => rfl
  | @send asked r e before ih =>
    rw [← ih, Running.send]
    split <;> rfl
  | @take asked r front back queue before ih => exact (shuttingDown_digest front r).trans ih
  | turn order had before ih => exact ih
  | wake time before ih => exact ih
  | wait time before ih => exact ih
  | ask first before ih => exact ih

theorem shuttingDown_of_start {now : Nat} {pipeline : List (Stage σ)} (opened : start now pipeline = .ok r) :
    r.shuttingDown = false := by
  obtain ⟨-, ⟨-, rfl⟩ | ⟨s, -, -, rfl⟩⟩ := start_eq_ok opened
  · rfl
  · rfl

end Running

namespace Receiver

variable {σ : Type}

/-! ### A pipeline that was rolled back -/

/-- What has left a pipeline is offered to the consumer, if the delivery comes to its end. -/
theorem remaining_delivers {b : Batcher} (sound : b.Sound) (runs : b.Runs) (left : List (Nat × Entry))
    (now : Nat) (r : Receiver σ) (limit : Option Nat)
    (atEnd : ((remaining left now b r.newDelivery).2.run limit).isOver = true) :
    ∃ batches : List Batch, batches.flatten = b.buffer ++ left.map Prod.snd ∧
      ∀ batch ∈ batches, Batcher.Fits b.limits batch ∧ ∃ call t,
        .offered call t (Logs.ofBatch batch) ∈ ((remaining left now b r.newDelivery).2.run limit).events := by
  obtain ⟨fed, still⟩ := Batcher.cuts_feed sound runs left
  have served := Batcher.cuts_elapse fed.sound now
  have last := Batcher.cuts_stop served.sound
  have cuts := (fed.trans served).trans last
  have opened : ((r.newDelivery.feed ((b.feed left).1 ++
      ((b.feed left).2.elapse now).1.toList)).settle now).closed = false :=
    (Delivery.closed_run _ _).trans (Delivery.closed_feed _ _)
  have settled : r.newDelivery.Reaches _ none _ :=
    .settle now (.feed ((b.feed left).1 ++ ((b.feed left).2.elapse now).1.toList) rfl .start)
  have history := ((settled.enqueue opened ((b.feed left).2.elapse now).2.stop.1).drain).run limit
  obtain ⟨calls, courses⟩ := history.courses_of_isOver atEnd
  rw [List.nil_append, List.map_append] at courses
  refine ⟨_, ?_, fun batch hb => ⟨cuts.fits batch hb, courses.offered batch hb⟩⟩
  have conserved := cuts.conserved
  rw [Batcher.buffer_stop served.sound, List.append_nil, List.append_nil, List.append_nil] at conserved
  exact conserved.symm

theorem batcher_remaining {b : Batcher} (sound : b.Sound) (runs : b.Runs) (left : List (Nat × Entry))
    (now : Nat) (d : Delivery) :
    (remaining left now b d).1.phase = .stopped ∧ (remaining left now b d).1.buffer = [] := by
  obtain ⟨fed, -⟩ := Batcher.cuts_feed sound runs left
  have served := Batcher.cuts_elapse fed.sound now
  exact ⟨Batcher.phase_stop _, Batcher.buffer_stop served.sound⟩

/-! ### What the calls say -/

def Started (calls : List HostCall) : Prop := ∃ answer, .start answer ∈ calls

/-- A start has succeeded, and no shutdown has come since. -/
def Between (calls : List HostCall) : Prop :=
  ∃ front back, calls = front ++ .start (.ok ()) :: back ∧ ∀ answer, .shutdown answer ∉ back

section

variable {calls : List HostCall} {call : HostCall}

theorem Between.started (h : Between calls) : Started calls := by
  obtain ⟨front, back, rfl, -⟩ := h
  exact ⟨.ok (), List.mem_append_right _ List.mem_cons_self⟩

theorem started_append_singleton :
    Started (calls ++ [call]) ↔ Started calls ∨ ∃ answer, call = .start answer := by
  simp [Started, exists_or, eq_comm]

theorem between_append_singleton :
    Between (calls ++ [call]) ↔
      call = .start (.ok ()) ∨ Between calls ∧ ∀ answer, call ≠ .shutdown answer := by
  constructor
  · rintro ⟨front, back, split, quiet⟩
    obtain rfl | ⟨init, last, rfl⟩ := List.eq_nil_or_concat back
    · exact .inl (List.append_singleton_inj.1 split).2
    · rw [List.concat_eq_append] at split quiet
      have both : calls ++ [call] = (front ++ .start (.ok ()) :: init) ++ [last] := by simpa using split
      obtain ⟨rfl, rfl⟩ := List.append_singleton_inj.1 both
      refine .inr ⟨⟨front, init, rfl, fun answer mem => quiet answer (List.mem_append_left _ mem)⟩, ?_⟩
      rintro answer rfl
      exact quiet answer (List.mem_append_right _ (List.mem_singleton_self _))
  · rintro (rfl | ⟨⟨front, back, rfl, quiet⟩, other⟩)
    · exact ⟨calls, [], rfl, by simp⟩
    · refine ⟨front, back ++ [call], by simp, fun answer mem => ?_⟩
      obtain earlier | last := List.mem_append.1 mem
      · exact quiet answer earlier
      · exact other answer (List.mem_singleton.1 last).symm

end

structure IsNew (pipeline : List (Stage σ)) (r : Receiver σ) : Prop where
  phase : r.phase = .created pipeline
  batcher : r.batcher.phase = .created
  buffer : r.batcher.buffer = []

inductive Standing (r₀ : Receiver σ) (calls : List HostCall) (r : Receiver σ) : Prop
  | new (unstarted : ¬ Started calls) (same : r = { r₀ with now := r.now })
  | running {p : Running σ} {d : Delivery} (phase : r.phase = .running p d)
      (holds : p.shuttingDown = false) (since : Between calls)
  | stopped (phase : r.phase = .stopped) (started : Started calls) (ended : ¬ Between calls)

section

variable {r₀ r r' : Receiver σ} {calls : List HostCall} {pipeline : List (Stage σ)}

theorem IsNew.setNow (h : IsNew pipeline r) (now : Nat) : IsNew pipeline { r with now } :=
  ⟨h.phase, h.batcher, h.buffer⟩

theorem IsNew.batching (h : IsNew pipeline r) :
    r.batcher.start r.now = .ok { r.batcher with phase := .running (r.batcher.nextDeadline r.now) } := by
  rw [Batcher.start, h.batcher]

theorem isNew_ofSettings {registry : Registry σ} {load : String → Except LoadError TemplateSet}
    {consumer : Consumer} {s : Settings} (built : ofSettings registry load consumer s = .ok r) :
    ∃ pipeline, IsNew pipeline r := by
  obtain ⟨pipeline, batcher, batching, rfl⟩ := eq_of_ofSettings built
  obtain ⟨-, created, buffer⟩ := Batcher.ofSettings_eq_ok batching
  exact ⟨pipeline, rfl, created, buffer⟩

namespace Standing

theorem ask (h : Standing r₀ calls r) {call : HostCall} (noStart : ∀ answer, call ≠ .start answer)
    (noShutdown : ∀ answer, call ≠ .shutdown answer) : Standing r₀ (calls ++ [call]) r := by
  have started : Started (calls ++ [call]) ↔ Started calls := by
    rw [started_append_singleton, or_iff_left]
    rintro ⟨answer, rfl⟩
    exact noStart answer rfl
  have between : Between (calls ++ [call]) ↔ Between calls := by
    rw [between_append_singleton, and_iff_left noShutdown, or_iff_right (noStart _)]
  cases h with
  | new unstarted same => exact .new (mt started.1 unstarted) same
  | running phase holds since => exact .running phase holds (between.2 since)
  | stopped phase start ended => exact .stopped phase (started.2 start) (mt between.1 ended)

theorem isRunning_iff (h : Standing r₀ calls r) (new : IsNew pipeline r₀) :
    (r.isRunning = true ↔ Between calls) ∧ (r.hasSender = true ↔ Between calls) := by
  cases h with
  | new unstarted same =>
    have idle : ¬ Between calls := mt Between.started unstarted
    have phase : r.phase = .created pipeline := by rw [same]; exact new.phase
    simp [isRunning, hasSender, phase, idle]
  | running phase holds since => simp [isRunning, hasSender, phase, holds, since]
  | stopped phase started ended => simp [isRunning, hasSender, phase, ended]

theorem idle_of_unstarted (new : IsNew pipeline r₀) (same : r = { r₀ with now := r.now }) :
    r.isRunning = false := by
  rw [same, isRunning, new.phase]

variable [Operator σ]

theorem start {answer : Except Failure Unit} (h : Standing r₀ calls r) (new : IsNew pipeline r₀)
    (starts : r.Starts answer r') : Standing r₀ (calls ++ [.start answer]) r' := by
  have started : Started (calls ++ [.start answer]) := started_append_singleton.2 (.inr ⟨answer, rfl⟩)
  cases h with
  | new unstarted same =>
    have fresh : IsNew pipeline r := same ▸ new.setNow r.now
    obtain ⟨p, opened, rfl, rfl⟩ | ⟨f, p, -, rfl, -, rfl⟩ :=
      starts.of_created fresh.phase fresh.batching fresh.buffer
    · exact .running rfl (Running.shuttingDown_of_start opened) (between_append_singleton.2 (.inl rfl))
    · refine .stopped rfl started fun between => ?_
      obtain success | ⟨since, -⟩ := between_append_singleton.1 between
      · cases success
      · exact unstarted since.started
  | running phase holds since =>
    obtain ⟨rfl, rfl⟩ := starts.of_not_created (by simp [phase])
    exact .running phase holds (between_append_singleton.2 (.inr ⟨since, by simp⟩))
  | stopped phase before ended =>
    obtain ⟨rfl, rfl⟩ := starts.of_not_created (by simp [phase])
    refine .stopped phase started fun between => ?_
    obtain success | ⟨since, -⟩ := between_append_singleton.1 between
    · cases success
    · exact ended since

theorem shutdown (h : Standing r₀ calls r) (new : IsNew pipeline r₀) (senderHeld : Bool)
    (visits : List Visit) :
    Standing r₀ (calls ++ [.shutdown (r.shutdown senderHeld visits).1]) (r.shutdown senderHeld visits).2 := by
  have ended : ¬ Between (calls ++ [.shutdown (r.shutdown senderHeld visits).1]) := by
    simp [between_append_singleton]
  have same : ∀ {answer}, Started (calls ++ [.shutdown answer]) ↔ Started calls := by
    simp [started_append_singleton]
  cases h with
  | new unstarted still =>
    rw [shutdown_of_not_running (idle_of_unstarted new still)]
    exact .new (mt same.1 unstarted) still
  | running phase holds since =>
    refine .stopped ?_ (same.2 since.started) ended
    simp only [Receiver.shutdown, phase]
    rfl
  | stopped phase started _ =>
    rw [shutdown_of_not_running (isRunning_eq_false_iff.2 (by simp [phase]))] at ended ⊢
    exact .stopped phase (same.2 started) ended

theorem shutdown_eq (h : Standing r₀ calls r) (new : IsNew pipeline r₀) (ended : ¬ Between calls)
    (senderHeld : Bool) (visits : List Visit) : r.shutdown senderHeld visits = (.ok (), r) := by
  refine shutdown_of_not_running ?_ senderHeld visits
  rw [Bool.eq_false_iff, ne_eq, (h.isRunning_iff new).1]
  exact ended

/-- Once the host has tried to start the receiver, no start changes anything. -/
theorem refuses (h : Standing r₀ calls r) (started : Started calls) {answer : Except Failure Unit}
    (starts : r.Starts answer r') : answer = .error alreadyStarted ∧ r' = r := by
  refine starts.of_not_created fun pipeline created => ?_
  cases h with
  | new unstarted same => exact unstarted started
  | running phase holds since => cases created.symm.trans phase
  | stopped phase started ended => cases created.symm.trans phase

omit [Operator σ] in
theorem eq_of_unstarted (h : Standing r₀ calls r) (unstarted : ¬ Started calls) :
    r = { r₀ with now := r.now } := by
  cases h with
  | new unstarted same => exact same
  | running phase holds since => exact absurd since.started unstarted
  | stopped phase started ended => exact absurd started unstarted

theorem send (h : Standing r₀ calls r) (new : IsNew pipeline r₀) (e : Entry) :
    Standing r₀ calls (r.send e).2 := by
  cases h with
  | new unstarted same =>
    rw [send_of_not_running (idle_of_unstarted new same)]
    exact .new unstarted same
  | @running p d phase holds since =>
    have steps : p.Reaches [] (p.send e).2 := .send e .start
    simp only [Receiver.send, phase]
    exact .running rfl (steps.shuttingDown_eq.trans holds) since
  | stopped phase started ended =>
    rw [send_of_not_running (isRunning_eq_false_iff.2 (by simp [phase]))]
    exact .stopped phase started ended

theorem work {p q : Running σ} {d : Delivery} {asked : List Failure} (h : Standing r₀ calls r)
    (new : IsNew pipeline r₀) (running : r.phase = .running p d) (steps : p.Reaches asked q) :
    Standing r₀ calls { r with now := q.now, phase := .running q d } := by
  cases h with
  | new unstarted same =>
    exact absurd running (isRunning_eq_false_iff.1 (idle_of_unstarted new same) p d)
  | running phase holds since =>
    obtain ⟨rfl, rfl⟩ := Phase.running.inj (running.symm.trans phase)
    exact .running rfl (steps.shuttingDown_eq.trans holds) since
  | stopped phase started ended => cases running.symm.trans phase

theorem elapse (h : Standing r₀ calls r) (new : IsNew pipeline r₀) (limit : Nat) :
    Standing r₀ calls (r.elapse limit) := by
  cases h with
  | new unstarted same =>
    rw [elapse_of_not_running (idle_of_unstarted new same)]
    exact .new unstarted (by rw [same])
  | @running p d phase holds since =>
    have steps : p.Reaches [] (p.elapse limit) := .elapse limit .start
    simp only [Receiver.elapse, phase]
    exact .running rfl (steps.shuttingDown_eq.trans holds) since
  | stopped phase started ended =>
    rw [elapse_of_not_running (isRunning_eq_false_iff.2 (by simp [phase]))]
    exact .stopped phase started ended

end Standing

variable [Operator σ]

/-- What happens between the calls does not change where a receiver stands. -/
theorem Hosted.standing (new : IsNew pipeline r₀) (history : r₀.Hosted calls r) :
    Standing r₀ calls r := by
  induction history with
  | new => exact .new (by simp [Started]) rfl
  | call answers before ih =>
    cases answers with
    | start starts => exact ih.start new starts
    | shutdown senderHeld visits => exact ih.shutdown new senderHeld visits
    | isRunning => exact ih.ask (by simp) (by simp)
    | hasSender => exact ih.ask (by simp) (by simp)
  | send e before ih => exact ih.send new e
  | work running steps before ih => exact ih.work new running steps
  | elapse limit before ih => exact ih.elapse new limit

/-- A start has failed. The batcher is empty and stopped, the delivery came to its end, and what had left
the pipeline was offered in batches; from then on nothing changes but the clock. -/
structure GivenUp (s : Settings) (r r' : Receiver σ) : Prop where
  idle : r'.isRunning = false
  batcher : r'.batcher.phase = .stopped ∧ r'.batcher.buffer = []
  delivered : ∃ p b, r.batcher.start r.now = .ok b ∧ r' = r.rolledBack p b ∧
    (r.lastDelivery p b).isOver = true
  offered : ∃ batches : List Batch, batches.flatten = r'.record.left.map Prod.snd ∧
    ∀ batch ∈ batches, (1 ≤ batch.length ∧ batch.length ≤ s.batch.maxFlushCount) ∧
      ∃ call t, .offered call t (Logs.ofBatch batch) ∈ r'.record.deliveries
  forGood : ∀ more later, r'.Hosted more later → later = { r' with now := later.now }

theorem givenUp_of_rolledBack {s : Settings} {b : Batcher} (new : IsNew pipeline r)
    (empty : r.record = {}) (count : r.batcher.limits.count = s.batch.maxFlushCount) {p : Running σ}
    (batching : r.batcher.start r.now = .ok b) (atEnd : (r.lastDelivery p b).isOver = true) :
    GivenUp s r (r.rolledBack p b) := by
  obtain ⟨-, started⟩ := Batcher.start_eq_ok batching
  have sound : b.Sound := by
    rw [started]
    exact Batcher.sound_of_buffer_eq_nil new.buffer
  have runs : b.Runs := ⟨_, by rw [started]⟩
  have buffer : b.buffer = [] := by
    rw [started]
    exact new.buffer
  obtain ⟨batches, flat, given⟩ := remaining_delivers sound runs p.output.left p.now r none atEnd
  refine
    { idle := rfl
      batcher := batcher_remaining sound runs p.output.left p.now r.newDelivery
      delivered := ⟨p, b, batching, rfl, atEnd⟩
      offered := ⟨batches, ?_, fun batch hb => ?_⟩
      forGood := fun more later further => further.still rfl (.inl rfl) }
  · rw [flat, buffer, List.nil_append]
    simp [rolledBack, recording, Record.append, empty]
  · obtain ⟨fits, call, t, offered⟩ := given batch hb
    refine ⟨?_, call, t, List.mem_append_right _ offered⟩
    rw [← count]
    rw [started] at fits
    exact fits

/-- The host of a receiver calls what it likes, in any order, and whichever operators fail to start. A start
succeeds at most once, and only if it is the first; all others are refused and leave the receiver as it is.
The receiver runs, and has a sender, from a successful start to the next shutdown. While it does not run, a
shutdown succeeds and changes nothing, so that a receiver that was never started is as new. A first start
that fails ends everything for good, and what had left the pipeline by then has been offered to the
consumer. -/
theorem runs_from_start_to_shutdown {registry : Registry σ} {load : String → Except LoadError TemplateSet}
    {consumer : Consumer} {s : Settings} (built : ofSettings registry load consumer s = .ok r₀)
    (history : r₀.Hosted calls r) :
    (∀ front back answer, calls = front ++ .start answer :: back →
      (answer = .ok () → ¬ Started front) ∧ (Started front → answer = .error alreadyStarted)) ∧
    (∀ front back answer, calls = front ++ .shutdown answer :: back → ¬ Between front → answer = .ok ()) ∧
    (∀ front back answer, calls = front ++ .isRunning answer :: back → (answer = true ↔ Between front)) ∧
    (∀ front back answer, calls = front ++ .hasSender answer :: back → (answer = true ↔ Between front)) ∧
    (r.isRunning = true ↔ Between calls) ∧ (r.hasSender = true ↔ Between calls) ∧
    (¬ Between calls → ∀ senderHeld visits, r.shutdown senderHeld visits = (.ok (), r)) ∧
    (Started calls → ∀ answer r', r.Starts answer r' → answer = .error alreadyStarted ∧ r' = r) ∧
    (¬ Started calls → r = { r₀ with now := r.now } ∧ ∃ pipeline, r.phase = .created pipeline ∧
      ∀ answer r', r.Starts answer r' →
        (answer = .ok () ↔ ∃ p, Running.start r.now pipeline = .ok p) ∧
        (answer ≠ .ok () → GivenUp s r r')) := by
  obtain ⟨pipeline, new⟩ := isNew_ofSettings built
  have standing := history.standing new
  refine ⟨?_, ?_, ?_, ?_, (standing.isRunning_iff new).1, (standing.isRunning_iff new).2,
    fun ended senderHeld visits => standing.shutdown_eq new ended senderHeld visits,
    fun started answer r' starts => standing.refuses started starts, fun unstarted => ?_⟩
  · rintro front back answer rfl
    obtain ⟨r, r', before, ⟨starts⟩⟩ := history.at_call
    refine ⟨?_, fun started => ((before.standing new).refuses started starts).1⟩
    rintro rfl started
    cases ((before.standing new).refuses started starts).1
  · rintro front back answer rfl ended
    obtain ⟨r, r', before, answers⟩ := history.at_call
    cases answers with
    | shutdown senderHeld visits => rw [(before.standing new).shutdown_eq new ended]
  · rintro front back answer rfl
    obtain ⟨r, r', before, ⟨⟩⟩ := history.at_call
    exact ((before.standing new).isRunning_iff new).1
  · rintro front back answer rfl
    obtain ⟨r, r', before, ⟨⟩⟩ := history.at_call
    exact ((before.standing new).isRunning_iff new).2
  · have same := standing.eq_of_unstarted unstarted
    refine ⟨same, pipeline, by rw [same]; exact new.phase, fun answer r' starts => ?_⟩
    have fresh : IsNew pipeline r := same ▸ new.setNow r.now
    obtain ⟨batching, -, record⟩ := ofSettings_eq_ok built
    obtain ⟨count, -, -⟩ := Batcher.ofSettings_eq_ok batching
    obtain ⟨p, opened, rfl, rfl⟩ | ⟨f, p, failed, rfl, atEnd, rfl⟩ :=
      starts.of_created fresh.phase fresh.batching fresh.buffer
    · exact ⟨by simp [opened], fun failed => absurd rfl failed⟩
    · refine ⟨by simp [failed], fun _ => ?_⟩
      exact givenUp_of_rolledBack fresh (by rw [same]; exact record) (by rw [same]; exact count)
        fresh.batching atEnd

end

end Receiver

inductive Porter where
  /-- Does not start. -/
  | gate
  /-- Sends an entry as soon as it is started. -/
  | bell

namespace Porter

instance : Operator Porter where
  start
    | .gate => { operator := .gate, outcome := .error ⟨"locked", []⟩ }
    | .bell => { operator := .bell, tasks := [.send {} fun _ => .finish (.ok ())] }

def types : Registry Porter :=
  .ofTypes [⟨"gate", .input, fun _ _ => .ok .gate⟩, ⟨"bell", .intermediate, fun _ _ => .ok .bell⟩]

def settings : Settings where
  pipeline := [[("type", .leaf (.string "gate"))], [("type", .leaf (.string "bell"))]]
  batch := { maxFlushCount := 2 }

def door : Receiver Porter where
  phase := .created [⟨"gate", "gate", .input, .gate⟩, ⟨"bell", "bell", .intermediate, .bell⟩]
  batcher := { limits := Batcher.pairs }
  policy := .ofSettings {}
  shutdownTimeout := .ofSeconds 10
  consumer := fun _ _ => {}

def batcher : Batcher := { limits := Batcher.pairs, phase := .running 100 }

def failing : Running Porter where
  now := 0
  input := some ⟨"gate", "gate", .input, .gate⟩
  stages := [⟨"bell", "bell", .intermediate, .bell⟩]
  jobs := [⟨"bell", .ready (.send {} fun _ => .finish (.ok ()))⟩]

/-- The entry that the bell sends gets through before the pipeline is rolled back. -/
def shut : Receiver Porter := door.rolledBack ((failing.elapse 1).halt 0 false []).2 batcher

def locked : Failure := (Chain.notStarted "gate" ⟨"locked", []⟩).context "failed to start the pipeline"

theorem door_runs_from_start_to_shutdown :
    Receiver.ofSettings types (fun _ => .ok .empty) (fun _ _ => {}) settings = .ok door ∧
    door.Hosted [.start (.error locked), .start (.error Receiver.alreadyStarted)] shut ∧
    (shut.isRunning = true ↔ Receiver.Between
      [.start (.error locked), .start (.error Receiver.alreadyStarted)]) ∧
    shut.record.left.length = 1 ∧ Receiver.GivenUp settings door shut := by
  have built : Receiver.ofSettings types (fun _ => .ok .empty) (fun _ _ => {}) settings = .ok door := rfl
  have fails : Running.FailsToStart 0 [⟨"gate", "gate", .input, .gate⟩,
      ⟨"bell", "bell", .intermediate, .bell⟩] (Chain.notStarted "gate" ⟨"locked", []⟩) failing :=
    .input rfl rfl rfl
  have rings : failing.Reaches [] (failing.elapse 1) := .elapse 1 .start
  have atEnd : (door.lastDelivery ((failing.elapse 1).halt 0 false []).2 batcher).isOver = true := by
    decide +kernel
  have starts : door.Starts (.error locked) shut := .amidst rfl rfl fails rings false [] atEnd
  have refused : shut.Starts (.error Receiver.alreadyStarted) shut := .alone
  have history : door.Hosted [.start (.error locked), .start (.error Receiver.alreadyStarted)] shut :=
    .call (.start refused) (.call (.start starts) .new)
  obtain ⟨-, -, -, -, runs, -, -, -, -⟩ := Receiver.runs_from_start_to_shutdown built history
  obtain ⟨-, -, -, -, -, -, -, -, first⟩ := Receiver.runs_from_start_to_shutdown built .new
  obtain ⟨-, pipeline, -, start⟩ := first (by simp [Receiver.Started])
  exact ⟨built, history, runs, by decide +kernel, (start _ _ starts).2 (by simp)⟩

end Porter

end LogIntake
