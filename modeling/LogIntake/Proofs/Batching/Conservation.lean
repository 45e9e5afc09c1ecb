import LogIntake.Collector
import LogIntake.Proofs.Batching.Cut

/-!
The books of a collector balance after every run: the entries that came in are those that left, in
order, and then those in the buffer. The callback has no say in this: what it fails on is gone.
-/
namespace LogIntake.Collector

open Batcher (Sound Cuts Fits Runs)

/-- Departures of a size that the limits allow; a batch that an entry filled is full. -/
def Departure.Allowed (limits : BatchLimits) : Departure → Prop
  | given _ on batch _ => Fits limits batch ∧ ∀ now e, on = .add now e → batch.length = limits.count
  | taken _ => True

/-- The books of a collector balance. -/
structure Balanced (limits : BatchLimits) (c : Collector) : Prop where
  sound : c.batcher.Sound
  limits_eq : c.batcher.limits = limits
  balance : c.accepted = c.departures.flatMap Departure.batch ++ c.batcher.buffer
  allowed : ∀ d ∈ c.departures, d.Allowed limits

theorem toList_dated (now : Nat) (batch : Option Batch) :
    (batch.map fun x => (now, x)).toList.map Prod.snd = batch.toList := by cases batch <;> rfl

@[simp] theorem batcher_give (callback : Callback) (on : Request) (due : Option (Nat × Batch))
    (c : Collector) : (c.give callback on due).batcher = c.batcher := by cases due <;> rfl

@[simp] theorem accepted_give (callback : Callback) (on : Request) (due : Option (Nat × Batch))
    (c : Collector) : (c.give callback on due).accepted = c.accepted := by cases due <;> rfl

/-- The books balance again when the batches that were cut have gone to the callback. -/
theorem Balanced.give {limits : BatchLimits} {c : Collector} (h : c.Balanced limits)
    (callback : Callback) (on : Request) {entries : List Entry} {due : Option (Nat × Batch)}
    {batcher : Batcher} (hc : Cuts c.batcher entries (due.toList.map Prod.snd) batcher)
    (hfull : ∀ now e, on = .add now e → ∀ batch ∈ due, batch.2.length = limits.count) :
    ({ c with batcher, accepted := c.accepted ++ entries }.give callback on due).Balanced limits := by
  obtain ⟨hs, hl, hb, ha⟩ := h
  have hcons := hc.conserved
  cases due with
  | none =>
    refine ⟨hc.sound, hc.limits.trans hl, ?_, ha⟩
    show c.accepted ++ entries = c.departures.flatMap Departure.batch ++ batcher.buffer
    rw [hb, List.append_assoc, hcons]
    simp
  | some due =>
    obtain ⟨now, batch⟩ := due
    refine ⟨hc.sound, hc.limits.trans hl, ?_, ?_⟩
    · simp only [Collector.give, List.flatMap_append, List.flatMap_singleton, Departure.batch]
      rw [hb, List.append_assoc, hcons]
      simp
    · intro d hd
      rcases List.mem_append.1 hd with hd | hd
      · exact ha d hd
      · obtain rfl : d = .given now on batch (callback c.calls batch) := by simpa using hd
        refine ⟨hl ▸ hc.fits batch (by simp), fun t e ht => ?_⟩
        exact hfull t e ht (now, batch) rfl

theorem Balanced.giveDue {limits : BatchLimits} {c : Collector} (h : c.Balanced limits)
    (callback : Callback) (on : Request) (hon : ∀ now e, on ≠ .add now e)
    (due : Option (Nat × Batch)) {batcher : Batcher}
    (hc : Cuts c.batcher [] (due.toList.map Prod.snd) batcher) :
    ({ c with batcher }.give callback on due).Balanced limits := by
  have hg := h.give callback on hc fun now e he => absurd he (hon now e)
  rwa [List.append_nil] at hg

/-- One request keeps the books in balance. -/
theorem Balanced.serve {limits : BatchLimits} {c : Collector} (h : c.Balanced limits)
    (callback : Callback) (request : Request) : (c.serve callback request).2.Balanced limits := by
  have hs := h.sound
  cases request with
  | start clock =>
    cases clock with
    | none => exact h
    | some now =>
      simp only [Collector.serve]
      split
      · next batcher hb =>
        have hc := Batcher.cuts_start hs hb
        exact h.giveDue callback (.start (some now)) (by simp) none hc
      · exact h
  | add now e =>
    simp only [Collector.serve]
    split
    · next full batcher hb =>
      obtain ⟨hc, hfull⟩ := Batcher.cuts_add hs hb
      rw [← toList_dated now full] at hc
      refine h.give callback (.add now e) hc ?_
      intro _ _ _ due hd
      obtain ⟨batch, hbatch, rfl⟩ := Option.map_eq_some_iff.1 hd
      rw [← h.limits_eq]
      exact hfull batch hbatch
    · exact h
  | flush now =>
    have hc := Batcher.cuts_flush hs now
    rw [← toList_dated now] at hc
    exact h.giveDue callback (.flush now) (by simp) _ hc
  | take =>
    refine ⟨Batcher.sound_of_buffer_eq_nil rfl, h.limits_eq, ?_, ?_⟩
    · simp [Collector.serve, Batcher.take, Departure.batch, h.balance]
    · intro d hd
      rcases List.mem_append.1 hd with hd | hd
      · exact h.allowed d hd
      · obtain rfl := List.mem_singleton.1 hd
        trivial
  | wait limit => exact h.giveDue callback (.wait limit) (by simp) _ (Batcher.cuts_elapse hs limit)
  | stop now =>
    have hc := Batcher.cuts_stop hs
    rw [← toList_dated now] at hc
    exact h.giveDue callback (.stop now) (by simp) _ hc

theorem Balanced.run {limits : BatchLimits} {c : Collector} (h : c.Balanced limits)
    (callback : Callback) (requests : List Request) : (c.run callback requests).Balanced limits := by
  induction requests generalizing c with
  | nil => exact h
  | cons request rest ih => exact ih (h.serve callback request)

/-! ### After the stop -/

structure Ended (c : Collector) : Prop where
  phase : c.batcher.phase = .stopped
  buffer : c.batcher.buffer = []

theorem Ended.not_runs {c : Collector} (h : c.Ended) : ¬ c.batcher.Runs := by
  rintro ⟨deadline, hd⟩
  exact Batcher.Phase.noConfusion (h.phase.symm.trans hd)

theorem ended_stop {limits : BatchLimits} {c : Collector} (h : c.Balanced limits)
    (callback : Callback) (now : Nat) : (c.serve callback (.stop now)).2.Ended := by
  constructor
  · simp [serve]
  · simpa [serve] using Batcher.buffer_stop h.sound

theorem Ended.add_refused {c : Collector} (h : c.Ended) (callback : Callback) (now : Nat) (e : Entry) :
    c.serve callback (.add now e) = (.refused .notRunning, c) := by
  have ha : c.batcher.add now e = .error .notRunning := Batcher.add_eq_error_iff.2 ⟨h.not_runs, rfl⟩
  simp only [serve, ha]

/-- After the stop nothing goes to the callback any more. -/
theorem Ended.serve {c : Collector} (h : c.Ended) (callback : Callback) (request : Request) :
    (c.serve callback request).2.Ended ∧ (c.serve callback request).2.given = c.given := by
  have hp := h.phase
  have hb := h.buffer
  cases request with
  | start clock =>
    cases clock with
    | none => exact ⟨h, rfl⟩
    | some now =>
      have hs : c.batcher.start now = .error .alreadyStarted := by simp [Batcher.start, hp]
      simp only [Collector.serve, hs]
      exact ⟨h, trivial⟩
  | add now e =>
    rw [h.add_refused callback now e]
    exact ⟨h, rfl⟩
  | flush now =>
    have hf : c.batcher.flush now = (none, c.batcher) := by simp [Batcher.flush, hp]
    simp only [Collector.serve, hf]
    exact ⟨h, rfl⟩
  | take =>
    refine ⟨⟨hp, rfl⟩, ?_⟩
    simp [Collector.serve, Collector.given, Departure.isGiven]
  | wait limit =>
    have he : c.batcher.elapse limit = (none, c.batcher) := by simp [Batcher.elapse, hp]
    simp only [Collector.serve, he]
    exact ⟨h, rfl⟩
  | stop now =>
    have hs : c.batcher.stop = (none, { c.batcher with phase := .stopped }) := by
      simp [Batcher.stop, hp]
    simp only [Collector.serve, hs]
    exact ⟨⟨rfl, hb⟩, rfl⟩

theorem Ended.run {c : Collector} (h : c.Ended) (callback : Callback) (requests : List Request) :
    (c.run callback requests).Ended ∧ (c.run callback requests).given = c.given := by
  induction requests generalizing c with
  | nil => exact ⟨h, rfl⟩
  | cons request rest ih =>
    obtain ⟨hended, hgiven⟩ := h.serve callback request
    obtain ⟨hrest, hsame⟩ := ih hended
    exact ⟨hrest, hsame.trans hgiven⟩

/-! ### The callback has no say -/

def Departure.content : Departure → Option (Nat × Request) × Batch
  | given now on batch _ => (some (now, on), batch)
  | taken batch => (none, batch)

/-- Two collectors that differ in nothing but what their callbacks said. -/
structure Alike (c d : Collector) : Prop where
  batcher : c.batcher = d.batcher
  accepted : c.accepted = d.accepted
  departures : c.departures.map Departure.content = d.departures.map Departure.content

theorem Alike.give {c d : Collector} (h : c.Alike d) (callback other : Callback) (on : Request)
    (due : Option (Nat × Batch)) : (c.give callback on due).Alike (d.give other on due) := by
  cases due with
  | none => exact h
  | some due => exact ⟨h.batcher, h.accepted, by simp [Collector.give, h.departures, Departure.content]⟩

theorem Alike.serve {c d : Collector} (h : c.Alike d) (callback other : Callback)
    (request : Request) :
    (c.serve callback request).1 = (d.serve other request).1 ∧
      (c.serve callback request).2.Alike (d.serve other request).2 := by
  obtain ⟨hb, ha, hd⟩ := h
  cases request with
  | start clock =>
    cases clock with
    | none => exact ⟨rfl, hb, ha, hd⟩
    | some now =>
      simp only [Collector.serve, hb]
      cases d.batcher.start now with
      | ok batcher => exact ⟨rfl, rfl, ha, hd⟩
      | error cause => exact ⟨rfl, hb, ha, hd⟩
  | add now e =>
    simp only [Collector.serve, hb]
    cases d.batcher.add now e with
    | ok added => exact ⟨rfl, Alike.give (by exact ⟨rfl, by rw [ha], hd⟩) callback other _ _⟩
    | error cause => exact ⟨rfl, hb, ha, hd⟩
  | flush now =>
    simp only [Collector.serve, hb]
    exact ⟨trivial, Alike.give (by exact ⟨rfl, ha, hd⟩) callback other _ _⟩
  | take =>
    simp only [Collector.serve, hb]
    exact ⟨trivial, rfl, ha, by simp [hd]⟩
  | wait limit =>
    simp only [Collector.serve, hb]
    exact ⟨trivial, Alike.give (by exact ⟨rfl, ha, hd⟩) callback other _ _⟩
  | stop now =>
    simp only [Collector.serve, hb]
    exact ⟨trivial, Alike.give (by exact ⟨rfl, ha, hd⟩) callback other _ _⟩

theorem Alike.run {c d : Collector} (h : c.Alike d) (callback other : Callback)
    (requests : List Request) : (c.run callback requests).Alike (d.run other requests) := by
  induction requests generalizing c d with
  | nil => exact h
  | cons request rest ih => exact ih (h.serve callback other request).2

/-! ### Every run -/

theorem balanced_ofSettings {s : BatchSettings} {b : Batcher} (h : Batcher.ofSettings s = .ok b) :
    Balanced b.limits { batcher := b } where
  sound := Batcher.sound_ofSettings h
  limits_eq := rfl
  balance := by simp [(Batcher.ofSettings_eq_ok h).2.2]
  allowed := by simp

/-- Whatever is asked of a collector and whatever its callback says: the entries that it accepted are
those that left it, in the order in which they left, and then those in the buffer. Batches keep to the
limits, nothing leaves for the callback after a stop, and another callback is given the same. -/
theorem run_conserves_entries {s : BatchSettings} {b : Batcher} (valid : Batcher.ofSettings s = .ok b)
    (callback : Callback) (requests : List Request) :
    let c := run callback requests { batcher := b }
    c.accepted = c.departures.flatMap Departure.batch ++ c.batcher.buffer ∧
    (∀ now on batch outcome, .given now on batch outcome ∈ c.departures →
      0 < batch.length ∧ batch.length ≤ s.maxFlushCount ∧
        ((∃ t e, on = .add t e) → batch.length = s.maxFlushCount)) ∧
    c.batcher.buffer.length < s.maxFlushCount ∧
    (∀ now later,
      let stopped := (c.serve callback (.stop now)).2
      let last := run callback later stopped
      stopped.batcher.buffer = [] ∧ last.batcher.buffer = [] ∧ last.given = stopped.given ∧
        ∀ t e, last.serve callback (.add t e) = (.refused .notRunning, last)) ∧
    (∀ other,
      let d := run other requests { batcher := b }
      c.Alike d ∧ ∀ request, (c.serve callback request).1 = (d.serve other request).1) := by
  obtain ⟨hcount, -, -⟩ := Batcher.ofSettings_eq_ok valid
  have hbal := (balanced_ofSettings valid).run callback requests
  refine ⟨hbal.balance, ?_, ?_, ?_, ?_⟩
  · intro now on batch outcome hmem
    obtain ⟨⟨hpos, hle⟩, hfull⟩ := hbal.allowed _ hmem
    rw [← hcount]
    exact ⟨hpos, hle, fun ⟨t, e, hon⟩ => hfull t e hon⟩
  · rw [← hcount, ← hbal.limits_eq]
    exact hbal.sound.roomy
  · intro now later
    have hstop := ended_stop hbal callback now
    obtain ⟨hended, hgiven⟩ := hstop.run callback later
    exact ⟨hstop.buffer, hended.buffer, hgiven, fun t e => hended.add_refused callback t e⟩
  · intro other
    have halike : (run callback requests { batcher := b }).Alike (run other requests { batcher := b }) :=
      Alike.run ⟨rfl, rfl, rfl⟩ callback other requests
    exact ⟨halike, fun request => (halike.serve callback other request).1⟩

def failingRun : Collector :=
  run (fun _ _ => .error ⟨"away", []⟩)
    [.start (some 0), .add 1 {}, .add 2 { severity := .error }, .add 3 {}, .stop 4]
    { batcher := { limits := Batcher.pairs } }

theorem failingRun_conserves_entries :
    Batcher.ofSettings { maxFlushCount := 2 } = .ok { limits := Batcher.pairs } ∧
    failingRun.accepted = [{}, { severity := .error }, {}] ∧
    failingRun.accepted =
      failingRun.departures.flatMap Departure.batch ++ failingRun.batcher.buffer := by
  have valid : Batcher.ofSettings { maxFlushCount := 2 } =
      .ok { limits := Batcher.pairs } := rfl
  exact ⟨valid, rfl, (run_conserves_entries valid _ _).1⟩

end LogIntake.Collector
