import LogIntake.Delivery

/-!
What a consumer that accepts everything is offered. The delivery takes batches from the front of its
queue, as they come in at the back, and offers each of them once.
-/
namespace LogIntake

def DeliveryEvent.logs? : DeliveryEvent → Option Logs
  | .offered _ _ logs => some logs
  | .failed _ _ _ => none
  | .accepted _ _ => none

def Consumer.Accepts (consumer : Consumer) : Prop :=
  ∀ call logs, (consumer call logs).outcome = .ok ()

namespace Delivery

def offered (events : List DeliveryEvent) : List Logs := events.filterMap DeliveryEvent.logs?

@[simp] theorem offered_append (front back : List DeliveryEvent) :
    offered (front ++ back) = offered front ++ offered back := List.filterMap_append

/-- No attempt is lost and none is repeated. -/
def Activity.Smooth : Activity → Prop
  | .idle => True
  | .calling _ _ _ _ _ outcome => outcome = .ok ()
  | .pausing _ _ _ _ => False
  | .ended => True

/-- A delivery to a consumer that accepts everything. It ends when nothing comes and nothing waits. -/
structure Smooth (d : Delivery) : Prop where
  accepts : d.consumer.Accepts
  activity : d.activity.Smooth
  ended : d.activity = .ended → d.closed = true ∧ d.queue = []

theorem Smooth.not_ended {d : Delivery} (smooth : d.Smooth) (opened : d.closed = false) :
    d.activity ≠ .ended := by
  intro h
  have closed := (smooth.ended h).1
  rw [opened] at closed
  cases closed

/-- From one state to another, some batches came in and some were offered. -/
structure Offers (d : Delivery) (come taken : List Batch) (d' : Delivery) : Prop where
  queue : d.queue ++ come = taken ++ d'.queue
  events : offered d'.events = offered d.events ++ taken.map Logs.ofBatch
  closed : d'.closed = d.closed
  smooth : d'.Smooth

namespace Offers

variable {d d' d'' : Delivery} {come taken more others : List Batch}

theorem refl (h : d.Smooth) : Offers d [] [] d := ⟨by simp, by simp, rfl, h⟩

theorem trans (h : Offers d come taken d') (k : Offers d' more others d'') :
    Offers d (come ++ more) (taken ++ others) d'' where
  queue := by
    calc d.queue ++ (come ++ more) = taken ++ (d'.queue ++ more) := by
          rw [← List.append_assoc, h.queue, List.append_assoc]
      _ = taken ++ others ++ d''.queue := by rw [k.queue, List.append_assoc]
  events := by rw [k.events, h.events, List.map_append, List.append_assoc]
  closed := k.closed.trans h.closed
  smooth := k.smooth

theorem setNow (h : Offers d come taken d') (now : Nat) : Offers d come taken { d' with now } where
  queue := h.queue
  events := h.events
  closed := h.closed
  smooth := ⟨h.smooth.accepts, h.smooth.activity, h.smooth.ended⟩

end Offers

theorem smooth_offer {d : Delivery} (accepts : d.consumer.Accepts) (now : Nat) (logs : Logs)
    (left : Nat) (pause : Span) : (d.offer now logs left pause).Smooth where
  accepts := accepts
  activity := accepts d.calls logs
  ended h := by simp [offer] at h

theorem offers_next? {limit : Option Nat} {d d' : Delivery} (smooth : d.Smooth)
    (h : d.next? limit = some d') : ∃ taken, Offers d [] taken d' := by
  have activity := smooth.activity
  cases ha : d.activity with
  | idle =>
    simp only [next?, ha] at h
    split at h
    · cases hq : d.queue with
      | nil =>
        rw [hq] at h
        dsimp only at h
        split at h
        · next hc =>
          obtain rfl := Option.some.inj h
          exact ⟨[], by simp [hq], by simp, rfl, smooth.accepts, trivial, fun _ => ⟨hc, rfl⟩⟩
        · cases h
      | cons batch queue =>
        rw [hq] at h
        obtain rfl := Option.some.inj h
        refine ⟨[batch], ?_, ?_, rfl, smooth_offer (d := { d with queue }) smooth.accepts _ _ _ _⟩
        · simp [offer, hq]
        · simp [offer, offered, DeliveryEvent.logs?]
    · cases h
  | calling logs left pause call answerAt outcome =>
    rw [ha] at activity
    obtain rfl : outcome = .ok () := activity
    simp only [next?, ha] at h
    cases answerAt with
    | none => cases h
    | some answerAt =>
      dsimp only at h
      split at h
      · obtain rfl := Option.some.inj h
        refine ⟨[], ?_, ?_, rfl, smooth.accepts, trivial, fun he => by simp [answer] at he⟩
        · simp [answer]
        · simp [answer, offered, DeliveryEvent.logs?]
      · cases h
  | pausing logs left pause wakeAt =>
    rw [ha] at activity
    exact activity.elim
  | ended =>
    simp only [next?, ha] at h
    cases h

theorem offers_run {d : Delivery} (limit : Option Nat) (smooth : d.Smooth) :
    ∃ taken, Offers d [] taken (d.run limit) := by
  fun_induction run limit d with
  | case1 d h => exact ⟨[], .refl smooth⟩
  | case2 d d' h ih =>
    obtain ⟨first, hf⟩ := offers_next? smooth h
    obtain ⟨others, ho⟩ := ih hf.smooth
    exact ⟨first ++ others, hf.trans ho⟩

theorem offers_elapse {d : Delivery} (limit : Nat) (smooth : d.Smooth) :
    ∃ taken, Offers d [] taken (d.elapse limit) := by
  obtain ⟨taken, h⟩ := offers_run (some limit) smooth
  exact ⟨taken, h.setNow _⟩

theorem offers_settle {d : Delivery} (t : Nat) (smooth : d.Smooth) :
    ∃ taken, Offers d [] taken (d.settle t) := by
  obtain ⟨taken, h⟩ := offers_run (some (t + 1)) smooth
  exact ⟨taken, h.setNow _⟩

theorem offers_enqueue {d : Delivery} (batch : Batch) (smooth : d.Smooth) (opened : d.closed = false) :
    Offers d [batch] [] { d with queue := d.queue ++ [batch] } where
  queue := rfl
  events := by simp
  closed := rfl
  smooth :=
    { accepts := smooth.accepts
      activity := smooth.activity
      ended := fun h => absurd h (smooth.not_ended opened) }

theorem offers_feed {d : Delivery} (batches : List (Nat × Batch)) (smooth : d.Smooth)
    (opened : d.closed = false) :
    ∃ taken, Offers d (batches.map Prod.snd) taken (d.feed batches) := by
  induction batches generalizing d with
  | nil => exact ⟨[], .refl smooth⟩
  | cons arrival rest ih =>
    obtain ⟨t, batch⟩ := arrival
    obtain ⟨taken, h⟩ := offers_elapse t smooth
    have come := h.trans (offers_enqueue batch h.smooth (h.closed.trans opened))
    obtain ⟨others, ho⟩ := ih come.smooth (come.closed.trans opened)
    exact ⟨_, come.trans ho⟩

theorem smooth_drain {d : Delivery} (smooth : d.Smooth) (opened : d.closed = false)
    (queue : List Batch) : (drain { d with queue }).Smooth where
  accepts := smooth.accepts
  activity := smooth.activity
  ended h := absurd h (smooth.not_ended opened)

theorem queue_of_isOver {d : Delivery} (smooth : d.Smooth) (atEnd : d.isOver = true) :
    d.queue = [] := by
  rw [isOver] at atEnd
  split at atEnd
  · next h => exact (smooth.ended h).2
  · cases atEnd

end Delivery

end LogIntake
