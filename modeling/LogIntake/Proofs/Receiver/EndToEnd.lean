import LogIntake.Proofs.Delivery.Collecting
import LogIntake.Proofs.Pipeline.Life
import LogIntake.Receiver

/-!
From the channel to the consumer. What a receiver accepts goes through the stages, what leaves them is
cut into batches, and the batches are offered to the consumer. At each of the two hand-overs the order
is kept, and when the receiver has shut down nothing is left on the way.
-/
namespace LogIntake

/-- What has left a pipeline is offered in batches, if the delivery comes to its end. -/
theorem Collects.remaining {limits : BatchLimits} {entries : List Entry} {past : List Logs} {b : Batcher}
    {d : Delivery} (h : Collects limits entries past b d) {left : List (Nat × Entry)} {now : Nat}
    {limit : Option Nat} (atEnd : ((Receiver.remaining left now b d).2.run limit).isOver = true) :
    ∃ batches : List Batch,
      past ++ Delivery.offered ((Receiver.remaining left now b d).2.run limit).events =
        batches.map Logs.ofBatch ∧
      (∀ batch ∈ batches, Batcher.Fits limits batch) ∧ batches.flatten = entries ++ left.map Prod.snd := by
  have fed := h.feed left now
  obtain ⟨taken, ho⟩ := Delivery.offers_settle now fed.smooth
  exact (fed.offers ho).finish limit rfl atEnd

namespace Receiver

variable {σ : Type}

theorem ofSettings_eq_ok {registry : Registry σ} {load : String → Except LoadError TemplateSet}
    {consumer : Consumer} {s : Settings} {r : Receiver σ}
    (h : ofSettings registry load consumer s = .ok r) :
    Batcher.ofSettings s.batch = .ok r.batcher ∧ r.consumer = consumer ∧ r.record = {} := by
  obtain ⟨pipeline, batcher, batching, rfl⟩ := eq_of_ofSettings h
  exact ⟨batching, rfl, rfl⟩

variable [Operator σ]

/-- The states that a receiver comes to before it is shut down. Others send entries, the stages and the
jobs have their turns in any order, and time passes. -/
inductive Reaches (r₀ : Receiver σ) : Receiver σ → Prop
  | start : Reaches r₀ r₀
  | send {r : Receiver σ} (e : Entry) (before : Reaches r₀ r) : Reaches r₀ (r.send e).2
  | work {r : Receiver σ} {p q : Running σ} {d : Delivery} {asked : List Failure}
      (running : r.phase = .running p d) (steps : p.Reaches asked q) (before : Reaches r₀ r) :
      Reaches r₀ { r with phase := .running q d }
  | elapse {r : Receiver σ} (limit : Nat) (before : Reaches r₀ r) : Reaches r₀ (r.elapse limit)

/-! ### The pipeline -/

/-- All that the pipeline did since its start, what was recorded and what it still shows, is one stretch
of work. -/
def Worked (base : List (Stage σ)) (record : Record) (p : Running σ) : Prop :=
  ∃ journal failures, Chain.Works base (some [])
    ⟨record.accepted ++ p.accepted, record.left.map Prod.snd ++ p.left, journal, failures⟩
    p.stages p.channel

namespace Worked

variable {base : List (Stage σ)} {record : Record} {p q : Running σ}

theorem becomes {asked : List Failure} (h : Worked base record p)
    (k : Running.Becomes ⟨[], [], [], asked⟩ p q) : Worked base record q := by
  obtain ⟨journal, failures, works⟩ := h
  obtain ⟨y, yields, more⟩ := k
  have accepted : q.accepted = p.accepted ++ y.accepted := congrArg Yield.accepted yields
  have left : q.left = p.left ++ y.left := congrArg Yield.left yields
  refine ⟨journal ++ y.journal, failures ++ y.failures, ?_⟩
  rw [accepted, left, ← List.append_assoc, ← List.append_assoc]
  exact works.trans more

theorem setRecord {journal : List String} {reported failures : List Failure}
    {deliveries : List DeliveryEvent} (h : Worked base record p) :
    Worked base (record.append ⟨p.accepted, p.output.left, journal, reported, deliveries⟩)
      { p with output := {}, failures, accepted := [] } := by
  obtain ⟨written, failed, works⟩ := h
  refine ⟨written, failed, ?_⟩
  simpa [Record.append, Running.left] using works

theorem stopInput (h : Worked base record p) : Worked base record p.stopInput.2 := by
  obtain ⟨written, failed, works⟩ := h
  have left : p.stopInput.2.left = p.left := by simp [Running.left]
  refine ⟨written, failed, ?_⟩
  rw [Running.accepted_stopInput, left, Running.stages_stopInput, Running.channel_stopInput]
  exact works

/-- All that a closed pipeline accepted has gone through its stages, up to an entry that broke one of
them. -/
theorem handles_or_breaksDown (h : Worked base record p) (closed : p.channel = none) :
    ∃ stages journal,
      Chain.Handles (record.accepted ++ p.accepted) base stages journal
        (record.left.map Prod.snd ++ p.left) ∨
      ∃ id cause, Chain.BreaksDown (record.accepted ++ p.accepted) base stages journal
        (record.left.map Prod.snd ++ p.left) id cause := by
  obtain ⟨journal, failures, works⟩ := h
  rw [closed] at works
  obtain ⟨stages, written, fatal, passed, -⟩ := works.ended
  obtain ⟨-, handles⟩ | ⟨id, cause, -, breaks⟩ := Chain.cases_of_passAll_eq passed
  · exact ⟨stages, written, .inl handles⟩
  · exact ⟨stages, written, .inr ⟨id, cause, breaks⟩⟩

end Worked

/-! ### The receiver -/

/-- The delivery when the pipeline of a receiver that shuts down has stopped, and the batcher too. -/
def deliveryAtStop (senderHeld : Bool) (visits : List Visit) (p : Running σ) (d : Delivery)
    (r : Receiver σ) : Delivery :=
  let stopped := (p.haltWithin r.shutdownTimeout senderHeld visits).2
  (remaining stopped.output.left stopped.now r.batcher d).2

theorem delivery_of_ending (senderHeld : Bool) (visits : List Visit) (p : Running σ) (d : Delivery)
    (r : Receiver σ) :
    (r.ending senderHeld visits p d).delivery =
      (r.deliveryAtStop senderHeld visits p d).run (some (r.ending senderHeld visits p d).limit) := by
  rw [ending, deliveryAtStop]

/-- If the clock shows the deadline, nothing is left behind of the pipeline. -/
theorem pipeline_of_endsOnClock {p : Running σ} {r : Receiver σ}
    (onClock : r.shutdownTimeout.endsOnClock p.now = true) (senderHeld : Bool) (visits : List Visit)
    (d : Delivery) :
    (r.ending senderHeld visits p d).pipeline =
      (p.halt r.shutdownTimeout.ceilMilliseconds senderHeld visits).2 := by
  rw [ending, Running.haltWithin_of_endsOnClock onClock]
  exact Running.outlive_halt _ senderHeld visits p _

/-- What holds in a receiver that runs, since its pipeline started with some stages. -/
structure Keeps (base : List (Stage σ)) (limits : BatchLimits) (r : Receiver σ) (p : Running σ)
    (d : Delivery) : Prop where
  phase : r.phase = .running p d
  worked : Worked base r.record p
  collects : Collects limits (r.record.left.map Prod.snd) (Delivery.offered r.record.deliveries)
    r.batcher d

namespace Keeps

variable {base : List (Stage σ)} {limits : BatchLimits} {r : Receiver σ} {p q : Running σ}
  {d : Delivery}

theorem work {asked : List Failure} (h : Keeps base limits r p d) (steps : p.Reaches asked q) :
    Keeps base limits { r with phase := .running q d } q d where
  phase := rfl
  worked := h.worked.becomes steps.becomes
  collects := h.collects

theorem send (h : Keeps base limits r p d) (e : Entry) :
    Keeps base limits (r.send e).2 (p.send e).2 d := by
  have sent := h.work (.send e .start)
  simpa [Receiver.send, h.phase] using sent

theorem elapse (h : Keeps base limits r p d) (limit : Nat) :
    ∃ p' d', Keeps base limits (r.elapse limit) p' d' := by
  have worked := h.worked.becomes (.elapse limit p)
  have fed := h.collects.feed (p.elapse limit).output.left limit
  obtain ⟨taken, ho⟩ := Delivery.offers_elapse limit fed.smooth
  have collected := (fed.offers ho).setEvents
  rw [← List.map_append, ← Delivery.offered_append] at collected
  simp only [Receiver.elapse, h.phase]
  exact ⟨_, _, rfl, worked.setRecord, collected⟩

theorem shutdown (h : Keeps base limits r p d) (senderHeld : Bool) (visits : List Visit)
    (onClock : r.stopsOnClock = true) (inTime : r.deliversInTime senderHeld visits = true) :
    ∃ batches : List Batch,
      Delivery.offered (r.shutdown senderHeld visits).2.record.deliveries =
        batches.map Logs.ofBatch ∧
      (∀ batch ∈ batches, Batcher.Fits limits batch) ∧
      batches.flatten = (r.shutdown senderHeld visits).2.record.left.map Prod.snd ∧
      ∃ stages journal,
        Chain.Handles (r.shutdown senderHeld visits).2.record.accepted base stages journal
          batches.flatten ∨
        ∃ id cause, Chain.BreaksDown (r.shutdown senderHeld visits).2.record.accepted base stages
          journal batches.flatten id cause := by
  simp only [stopsOnClock, h.phase] at onClock
  rw [deliversInTime_of_running h.phase, delivery_of_ending] at inTime
  obtain ⟨batches, offered, fits, conserved⟩ := h.collects.remaining inTime
  rw [← deliveryAtStop, ← delivery_of_ending, ← Delivery.offered_append] at offered
  rw [Running.haltWithin_of_endsOnClock onClock, ← List.map_append] at conserved
  have stopped := h.worked.stopInput.becomes
    (Running.becomes_halt r.shutdownTimeout.ceilMilliseconds senderHeld visits p)
  have handled := stopped.handles_or_breaksDown (Running.channel_drain _)
  rw [Running.left, ← List.map_append, ← conserved] at handled
  -- nothing goes on in the pipeline while the delivery comes to its end
  have whole := pipeline_of_endsOnClock onClock senderHeld visits d
  rw [shutdown_of_running h.phase, deliveries_conclude, left_conclude, accepted_conclude, whole]
  exact ⟨batches, offered, fits, conserved, handled⟩

end Keeps

/-! ### From the settings to the end -/

theorem start_eq_ok {r r' : Receiver σ} (h : r.start = (.ok (), r')) :
    ∃ pipeline batcher p, r.phase = .created pipeline ∧ r.batcher.start r.now = .ok batcher ∧
      Running.start r.now pipeline = .ok p ∧
      r' = { r with
        phase := .running p { policy := r.policy, consumer := r.consumer, now := r.now }
        batcher } := by
  rw [start] at h
  split at h
  · next pipeline hp =>
    split at h
    · cases h
    · next batcher hb =>
      dsimp only at h
      split at h
      · next p started =>
        cases h
        exact ⟨pipeline, batcher, p, hp, hb, started, rfl⟩
      · cases h
  · cases h

theorem keeps_start {registry : Registry σ} {load : String → Except LoadError TemplateSet}
    {consumer : Consumer} {s : Settings} {r r' : Receiver σ}
    (built : ofSettings registry load consumer s = .ok r) (started : r.start = (.ok (), r'))
    (accepts : consumer.Accepts) :
    ∃ p d, r'.phase = .running p d ∧ Keeps p.stages r.batcher.limits r' p d := by
  obtain ⟨batching, rfl, empty⟩ := ofSettings_eq_ok built
  obtain ⟨pipeline, batcher, p, -, hb, hp, rfl⟩ := start_eq_ok started
  have fresh := Running.isFresh_of_start hp
  obtain ⟨-, created, buffer⟩ := Batcher.ofSettings_eq_ok batching
  have new : ({ limits := r.batcher.limits } : Batcher) = r.batcher := by
    rw [← created, ← buffer]
  have cuts := Batcher.cuts_start (Batcher.sound_ofSettings batching) hb
  obtain ⟨-, rfl⟩ := Batcher.start_eq_ok hb
  refine ⟨p, _, rfl, rfl, ?_, ?_⟩
  · refine ⟨[], [], ?_⟩
    simpa [empty, fresh.accepted, fresh.left, fresh.channel] using
      Chain.Works.refl p.stages (some [])
  · refine ⟨⟨[], by simp [empty, Delivery.offered], ?_⟩, ⟨_, rfl⟩, ⟨accepts, trivial, ?_⟩, rfl⟩
    · rw [new]
      simpa [empty] using cuts
    · intro h
      cases h

theorem Reaches.keeps {base : List (Stage σ)} {limits : BatchLimits} {r₀ r : Receiver σ}
    {p : Running σ} {d : Delivery} (h : Keeps base limits r₀ p d) (history : r₀.Reaches r) :
    ∃ q e, Keeps base limits r q e := by
  induction history with
  | start => exact ⟨p, d, h⟩
  | send e before ih =>
    obtain ⟨q, f, ih⟩ := ih
    exact ⟨_, _, ih.send e⟩
  | work running steps before ih =>
    obtain ⟨q, f, ih⟩ := ih
    obtain ⟨rfl, rfl⟩ := Phase.running.inj (running.symm.trans ih.phase)
    exact ⟨_, _, ih.work steps⟩
  | elapse limit before ih =>
    obtain ⟨q, f, ih⟩ := ih
    exact ih.elapse limit

/-- From the channel to the consumer nothing is lost, doubled or moved. If the consumer accepts what it
is offered and the delivery ends in time, then after the shutdown the consumer was offered batches of
allowed lengths, and these, in a row, are what the stages made of the accepted entries in their order. -/
theorem shutdown_delivers_accepted {registry : Registry σ}
    {load : String → Except LoadError TemplateSet} {consumer : Consumer} {s : Settings}
    {r₀ r₁ r : Receiver σ} (built : ofSettings registry load consumer s = .ok r₀)
    (started : r₀.start = (.ok (), r₁)) (history : r₁.Reaches r) (accepts : consumer.Accepts)
    (senderHeld : Bool) (visits : List Visit) (onClock : r.stopsOnClock = true)
    (inTime : r.deliversInTime senderHeld visits = true) :
    let record := (r.shutdown senderHeld visits).2.record
    ∃ p d, r₁.phase = .running p d ∧ ∃ batches : List Batch,
      Delivery.offered record.deliveries = batches.map Logs.ofBatch ∧
      (∀ batch ∈ batches, 1 ≤ batch.length ∧ batch.length ≤ s.batch.maxFlushCount) ∧
      batches.flatten = record.left.map Prod.snd ∧
      ∃ stages journal,
        Chain.Handles record.accepted p.stages stages journal batches.flatten ∨
        ∃ id cause,
          Chain.BreaksDown record.accepted p.stages stages journal batches.flatten id cause := by
  obtain ⟨batching, -, -⟩ := ofSettings_eq_ok built
  obtain ⟨count, -, -⟩ := Batcher.ofSettings_eq_ok batching
  obtain ⟨p, d, running, kept⟩ := keeps_start built started accepts
  obtain ⟨q, e, keeps⟩ := history.keeps kept
  obtain ⟨batches, offered, fits, left, handled⟩ := keeps.shutdown senderHeld visits onClock inTime
  refine ⟨p, d, running, batches, offered, ?_, left, handled⟩
  intro batch hb
  rw [← count]
  exact fits batch hb

def fuseType : OperatorType Fuse := ⟨"fuse", .intermediate, fun _ _ => .ok ⟨3⟩⟩

def fusedSettings : Settings where
  pipeline := [[("type", .leaf (.string "fuse"))]]
  batch := { maxFlushCount := 2 }

def fused : Receiver Fuse where
  phase := .created [⟨"fuse", "fuse", .intermediate, ⟨3⟩⟩]
  batcher := { limits := Batcher.pairs }
  policy := .ofSettings {}
  shutdownTimeout := .ofSeconds 10
  consumer := fun _ _ => {}

def busy : Receiver Fuse :=
  ((((fused.start.2.send {}).2.send { severity := .error }).2.elapse 5).send {}).2

theorem busy_shutdown_delivers_accepted :
    ofSettings (.ofTypes [fuseType]) (fun _ => .ok .empty) (fun _ _ => {}) fusedSettings = .ok fused ∧
    fused.start = (.ok (), fused.start.2) ∧ fused.start.2.Reaches busy ∧
    busy.stopsOnClock = true ∧ busy.deliversInTime false [] = true ∧ ∃ batches : List Batch,
      Delivery.offered (busy.shutdown false []).2.record.deliveries = batches.map Logs.ofBatch ∧
      (∀ batch ∈ batches, 1 ≤ batch.length ∧ batch.length ≤ 2) ∧
      batches.flatten = (busy.shutdown false []).2.record.left.map Prod.snd := by
  have built : ofSettings (.ofTypes [fuseType]) (fun _ => .ok .empty) (fun _ _ => {}) fusedSettings =
      .ok fused := rfl
  have started : fused.start = (.ok (), fused.start.2) := rfl
  have history : fused.start.2.Reaches busy :=
    .send {} (.elapse 5 (.send { severity := .error } (.send {} .start)))
  have onClock : busy.stopsOnClock = true := by decide +kernel
  have inTime : busy.deliversInTime false [] = true := by decide +kernel
  obtain ⟨_, _, _, batches, offered, fits, left, _⟩ :=
    shutdown_delivers_accepted built started history (fun _ _ => rfl) false [] onClock inTime
  exact ⟨built, started, history, onClock, inTime, batches, offered, fits, left⟩

/-! ### Timeouts at both ends -/

/-- The consumer was offered in batches of allowed lengths what has left the pipeline. -/
def Delivers (count : Nat) (record : Record) : Prop :=
  ∃ batches : List Batch, Delivery.offered record.deliveries = batches.map Logs.ofBatch ∧
    (∀ batch ∈ batches, 1 ≤ batch.length ∧ batch.length ≤ count) ∧
    batches.flatten = record.left.map Prod.snd

theorem length_flatten_le {count : Nat} {batches : List Batch}
    (fits : ∀ batch ∈ batches, batch.length ≤ count) :
    batches.flatten.length ≤ batches.length * count := by
  induction batches with
  | nil => simp
  | cons batch rest ih =>
    obtain ⟨first, others⟩ := List.forall_mem_cons.1 fits
    have later := ih others
    simp only [List.flatten_cons, List.length_append, List.length_cons, Nat.succ_mul]
    omega

theorem not_delivers {count : Nat} {record : Record}
    (few : (Delivery.offered record.deliveries).length * count < record.left.length) :
    ¬ Delivers count record := by
  rintro ⟨batches, offered, fits, left⟩
  have room := length_flatten_le fun batch hb => (fits batch hb).2
  rw [left, List.length_map] at room
  rw [offered, List.length_map] at few
  exact absurd room (Nat.not_le.2 few)

def rushed : Receiver Fuse := { fused with shutdownTimeout := .zero }

/-- A receiver with a timeout that no clock shows, whose consumer takes its time. -/
def distant : Receiver Fuse where
  phase := .created [⟨"fuse", "fuse", .intermediate, ⟨3⟩⟩]
  batcher := { limits := Batcher.pairs }
  policy := .ofSettings {}
  shutdownTimeout := .ofSeconds (1 <<< 63)
  consumer := fun _ _ => { delay := some 10 }

def rushing : Receiver Fuse := (rushed.start.2.send {}).2

def waiting : Receiver Fuse := ((distant.start.2.send {}).2.send { severity := .error }).2.elapse 5

/-- While the consumer takes the first two entries, another one comes. -/
def latecomer : Visit := { time := 7, entry := some {} }

/-- A delivery that needs no time is not begun when it has none. And where the clock cannot show the deadline,
a stop leaves the stages to themselves: the delivery is over long before its limit, and an entry that was
accepted meanwhile gets lost. -/
theorem rushed_and_distant_lose_entries :
    (ofSettings (.ofTypes [fuseType]) (fun _ => .ok .empty) (fun _ _ => {})
        { fusedSettings with shutdownTimeout := .zero } = .ok rushed ∧
      rushed.consumer.Accepts ∧ rushed.start = (.ok (), rushed.start.2) ∧
      rushed.start.2.Reaches rushing ∧
      (∃ p d, rushing.phase = .running p d ∧
        ((rushing.deliveryAtStop false [] p d).run none).isOver = true ∧
        ((rushing.deliveryAtStop false [] p d).run none).now =
          (p.haltWithin .zero false []).2.now) ∧
      ¬ Delivers 2 (rushing.shutdown false []).2.record) ∧
    ofSettings (.ofTypes [fuseType]) (fun _ => .ok .empty) (fun _ _ => { delay := some 10 })
        { fusedSettings with shutdownTimeout := .ofSeconds (1 <<< 63) } = .ok distant ∧
      distant.consumer.Accepts ∧ distant.start = (.ok (), distant.start.2) ∧
      distant.start.2.Reaches waiting ∧
      waiting.deliversInTime true [latecomer] = true ∧
      (waiting.shutdown true [latecomer]).2.record.accepted.length = 3 ∧
      ¬ Delivers 2 (waiting.shutdown true [latecomer]).2.record := by
  refine ⟨⟨rfl, fun _ _ => rfl, rfl, .send {} .start, ⟨_, _, rfl, ?_, ?_⟩, not_delivers ?_⟩,
    rfl, fun _ _ => rfl, rfl, .elapse 5 (.send { severity := .error } (.send {} .start)),
    ?_, ?_, not_delivers ?_⟩
  all_goals decide +kernel

end Receiver

end LogIntake
