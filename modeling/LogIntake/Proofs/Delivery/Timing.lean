import LogIntake.Proofs.Delivery.Retrying

/-!
A delivery against the clock. A limit does not change what a delivery does, only how far it comes: what
happens before the limit is the beginning of what happens without one. So a delivery that is given up at
the limit is one that would not have come to its end before.
-/
namespace LogIntake

def DeliveryEvent.time : DeliveryEvent → Nat
  | .offered _ now _ => now
  | .failed _ now _ => now
  | .accepted _ now => now

namespace Delivery

variable {d d' d'' : Delivery} {limit t : Nat}

/-! ### The clock goes on -/

/-- From one state to another the clock went on, and what happened did so at its times. -/
structure Ages (d d' : Delivery) : Prop where
  onward : d.now ≤ d'.now
  events : ∃ more, d'.events = d.events ++ more ∧ ∀ e ∈ more, d.now ≤ e.time ∧ e.time ≤ d'.now

namespace Ages

theorem of_eq (now : d.now ≤ d'.now) (events : d'.events = d.events) : Ages d d' :=
  ⟨now, [], by rw [events, List.append_nil], by simp⟩

theorem refl (d : Delivery) : Ages d d := .of_eq (Nat.le_refl _) rfl

theorem trans (h : Ages d d') (k : Ages d' d'') : Ages d d'' := by
  obtain ⟨first, hfirst, before⟩ := h.events
  obtain ⟨last, hlast, behind⟩ := k.events
  refine ⟨Nat.le_trans h.onward k.onward, first ++ last, ?_, ?_⟩
  · rw [hlast, hfirst, List.append_assoc]
  · intro e he
    obtain he | he := List.mem_append.1 he
    · exact ⟨(before e he).1, Nat.le_trans (before e he).2 k.onward⟩
    · exact ⟨Nat.le_trans h.onward (behind e he).1, (behind e he).2⟩

theorem dated (h : Ages d d') (before : ∀ e ∈ d.events, e.time ≤ t) (now : d'.now ≤ t) :
    ∀ e ∈ d'.events, e.time ≤ t := by
  obtain ⟨more, same, times⟩ := h.events
  rw [same]
  exact List.forall_mem_append.2 ⟨before, fun e he => Nat.le_trans (times e he).2 now⟩

theorem offer (now : d.now ≤ t) (logs : Logs) (left : Nat) (pause : Span) :
    Ages d (d.offer t logs left pause) :=
  ⟨now, [.offered d.calls t logs], rfl, by simp [Delivery.offer, DeliveryEvent.time, now]⟩

theorem answer (now : d.now ≤ t) (logs : Logs) (left : Nat) (pause : Span) (call : Nat)
    (outcome : Except Failure Unit) : Ages d (d.answer t logs left pause call outcome) := by
  cases outcome with
  | ok accepted =>
    exact ⟨now, [.accepted call t], rfl, by simp [Delivery.answer, DeliveryEvent.time, now]⟩
  | error cause =>
    exact ⟨now, [.failed call t cause], rfl, by simp [Delivery.answer, DeliveryEvent.time, now]⟩

theorem next (h : Next d d') : Ages d d' := by
  cases h with
  | @takesUp batch queue idle waiting =>
    have taken : Ages d { d with queue } := .of_eq (Nat.le_refl _) rfl
    exact taken.trans (offer (Nat.le_refl _) _ _ _)
  | ends idle empty closed => exact .of_eq (Nat.le_refl _) rfl
  | answers calling => exact answer (Nat.le_max_left _ _) _ _ _ _ _
  | resumes pausing =>
    refine offer ?_ _ _ _
    split
    · exact Nat.le_refl _
    · exact Nat.le_max_left _ _

theorem run (limit : Option Nat) (d : Delivery) : Ages d (d.run limit) := by
  fun_induction Delivery.run limit d with
  | case1 d h => exact refl d
  | case2 d d' h ih => exact (next (next_of_next? h)).trans ih

theorem elapse (limit : Nat) (d : Delivery) : Ages d (d.elapse limit) :=
  (run (some limit) d).trans (.of_eq (Nat.le_max_left _ _) rfl)

theorem settle (t : Nat) (d : Delivery) : Ages d (d.settle t) :=
  (run (some (t + 1)) d).trans (.of_eq (Nat.le_max_left _ _) rfl)

theorem feed (batches : List (Nat × Batch)) (d : Delivery) : Ages d (d.feed batches) := by
  induction batches generalizing d with
  | nil => exact refl d
  | cons arrival rest ih =>
    have come : Ages (d.elapse arrival.1)
        { d.elapse arrival.1 with queue := (d.elapse arrival.1).queue ++ [arrival.2] } :=
      .of_eq (Nat.le_refl _) rfl
    exact ((elapse arrival.1 d).trans come).trans (ih _)

end Ages

/-! ### A limit only cuts off -/

theorem guarded_eq_some_iff {limit : Option Nat} {next : Option Delivery}
    (now : ∀ e, next = some e → e.now = t) :
    (if before limit t then next else none) = some d' ↔
      (if before none t then next else none) = some d' ∧ before limit d'.now = true := by
  have always : before none t = true := rfl
  rw [if_pos always, Option.ite_none_right_eq_some]
  constructor
  · rintro ⟨early, same⟩
    rw [now d' same]
    exact ⟨same, early⟩
  · rintro ⟨same, early⟩
    rw [now d' same] at early
    exact ⟨early, same⟩

/-- What happens next before a limit is what happens next without one, if its time comes before. -/
theorem next?_eq_some_iff {limit : Option Nat} :
    d.next? limit = some d' ↔ d.next? none = some d' ∧ before limit d'.now = true := by
  cases ha : d.activity with
  | idle =>
    cases hq : d.queue with
    | nil =>
      rw [next?_of_empty _ ha hq, next?_of_empty _ ha hq]
      refine guarded_eq_some_iff fun e he => ?_
      obtain ⟨-, next⟩ := Option.ite_none_right_eq_some.1 he
      rw [← Option.some.inj next]
    | cons batch queue =>
      rw [next?_of_idle _ ha hq, next?_of_idle _ ha hq]
      refine guarded_eq_some_iff fun e he => ?_
      rw [← Option.some.inj he]
      rfl
  | calling logs left pause call answerAt outcome =>
    cases answerAt with
    | none => simp [next?, ha]
    | some t =>
      rw [next?_of_calling _ ha, next?_of_calling _ ha]
      refine guarded_eq_some_iff fun e he => ?_
      rw [← Option.some.inj he]
      cases outcome <;> rfl
  | pausing logs left pause wakeAt =>
    rw [next?_of_pausing _ ha, next?_of_pausing _ ha]
    refine guarded_eq_some_iff fun e he => ?_
    rw [← Option.some.inj he]
    rfl
  | ended => simp [next?, ha]

theorem run_of_next? {limit : Option Nat} (h : d.next? limit = some d') :
    d.run limit = d'.run limit := by
  rw [run]
  split
  · next none => cases h.symm.trans none
  · next d'' some => rw [Option.some.inj (h.symm.trans some)]

theorem run_of_quiet {limit : Option Nat} (h : d.next? limit = none) : d.run limit = d := by
  rw [run]
  split
  · rfl
  · next d' some => cases h.symm.trans some

/-- What happens before a limit is the beginning of what happens without one. -/
theorem run_none_run (limit : Nat) (d : Delivery) : (d.run (some limit)).run none = d.run none := by
  fun_induction run (some limit) d with
  | case1 d h => rfl
  | case2 d d' h ih => rw [ih, run_of_next? (next?_eq_some_iff.1 h).1]

theorem now_run_le (now : d.now ≤ t) (reached : limit ≤ t + 1) : (d.run (some limit)).now ≤ t := by
  fun_induction run (some limit) d with
  | case1 d h => exact now
  | case2 d d' h ih =>
    have early : d'.now < limit := by simpa [before] using (next?_eq_some_iff.1 h).2
    exact ih (by omega)

theorem now_elapse_le (now : d.now ≤ t) (reached : limit ≤ t) : (d.elapse limit).now ≤ t :=
  Nat.max_le.2 ⟨now_run_le now (Nat.le_succ_of_le reached), reached⟩

theorem now_feed_le (now : d.now ≤ t) {batches : List (Nat × Batch)}
    (times : ∀ x ∈ batches, x.1 ≤ t) : (d.feed batches).now ≤ t := by
  induction batches generalizing d with
  | nil => exact now
  | cons arrival rest ih =>
    obtain ⟨first, others⟩ := List.forall_mem_cons.1 times
    have come : (d.elapse arrival.1).now ≤ t := now_elapse_le now first
    exact ih come others

theorem now_settle (now : d.now ≤ t) : (d.settle t).now = t :=
  Nat.max_eq_right (now_run_le now (Nat.le_refl _))

theorem run_of_isOver (atEnd : d.isOver = true) (limit : Option Nat) : d.run limit = d := by
  rw [isOver] at atEnd
  split at atEnd
  · next ended => exact run_of_quiet (by simp only [next?, ended])
  · cases atEnd

theorem isOver_run_of_empty (idle : d.activity = .idle) (empty : d.queue = []) (closed : d.closed = true) :
    (d.run none).isOver = true := by
  have ends : d.next? none = some { d with activity := .ended } := by
    simp [next?_of_empty _ idle empty, before, closed]
  rw [run_of_next? ends, run_of_isOver rfl]
  rfl

/-- A delivery that is over at the limit has not been cut off. -/
theorem run_none_of_isOver (atEnd : (d.run (some limit)).isOver = true) :
    d.run none = d.run (some limit) := by
  rw [← run_none_run limit, run_of_isOver atEnd]

theorem isOver_run_of_lt (atEnd : (d.run none).isOver = true) (early : (d.run none).now < limit) :
    (d.run (some limit)).isOver = true := by
  have whole := run_none_run limit d
  have quiet := next?_run (some limit) d
  generalize d.run (some limit) = e at whole quiet ⊢
  cases hn : e.next? none with
  | none =>
    rw [run_of_quiet hn] at whole
    rw [whole]
    exact atEnd
  | some e' =>
    -- what is cut off would have come before the limit
    rw [run_of_next? hn] at whole
    have late := (Ages.run none e').onward
    rw [whole] at late
    have next : e.next? (some limit) = some e' :=
      next?_eq_some_iff.2 ⟨hn, decide_eq_true (Nat.lt_of_le_of_lt late early)⟩
    cases quiet.symm.trans next

end Delivery

end LogIntake
