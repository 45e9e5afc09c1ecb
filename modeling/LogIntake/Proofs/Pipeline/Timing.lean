import LogIntake.Proofs.Pipeline.Life

/-!
A pipeline against the clock. Its work never goes past the limit that it is given, so a stop ends at the
deadline or before, whatever the jobs, the senders and the visitors do; and what leaves the pipeline leaves
it at the time of its clock.
-/
namespace LogIntake

namespace Running

variable {σ : Type} {r r' r'' : Running σ}

@[simp] theorem now_send (e : Entry) (r : Running σ) : (r.send e).2.now = r.now := by
  rw [send]
  split <;> rfl

@[simp] theorem now_stopInput [Operator σ] (r : Running σ) : r.stopInput.2.now = r.now := by
  rw [stopInput]
  split <;> rfl

theorem le_overAt (deadline : Nat) (senderHeld : Bool) (r : Running σ) :
    r.now ≤ r.overAt deadline senderHeld := by
  rw [overAt]
  split
  · exact Nat.le_refl _
  · exact Nat.le_max_left _ _

theorem overAt_le {deadline : Nat} (senderHeld : Bool) (now : r.now ≤ deadline) :
    r.overAt deadline senderHeld ≤ deadline := by
  rw [overAt]
  split
  · exact now
  · exact Nat.max_le.2 ⟨now, Nat.le_refl _⟩

/-! ### The clock goes on -/

/-- From one state to another the clock went on, and what left the pipeline did so at its times. -/
structure Ages (r r' : Running σ) : Prop where
  onward : r.now ≤ r'.now
  left : ∃ more, r'.output.left = r.output.left ++ more ∧ ∀ x ∈ more, r.now ≤ x.1 ∧ x.1 ≤ r'.now

namespace Ages

theorem of_eq (now : r.now ≤ r'.now) (left : r'.output.left = r.output.left) : Ages r r' :=
  ⟨now, [], by rw [left, List.append_nil], by simp⟩

theorem refl (r : Running σ) : Ages r r := .of_eq (Nat.le_refl _) rfl

theorem trans (h : Ages r r') (k : Ages r' r'') : Ages r r'' := by
  obtain ⟨first, hfirst, before⟩ := h.left
  obtain ⟨last, hlast, behind⟩ := k.left
  refine ⟨Nat.le_trans h.onward k.onward, first ++ last, ?_, ?_⟩
  · rw [hlast, hfirst, List.append_assoc]
  · intro x hx
    obtain hx | hx := List.mem_append.1 hx
    · exact ⟨(before x hx).1, Nat.le_trans (before x hx).2 k.onward⟩
    · exact ⟨Nat.le_trans h.onward (behind x hx).1, (behind x hx).2⟩

theorem dated (h : Ages r r') (before : ∀ x ∈ r.output.left, x.1 ≤ r.now) :
    ∀ x ∈ r'.output.left, x.1 ≤ r'.now := by
  obtain ⟨more, same, times⟩ := h.left
  rw [same]
  exact List.forall_mem_append.2
    ⟨fun x hx => Nat.le_trans (before x hx) h.onward, fun x hx => (times x hx).2⟩

theorem setNow (r : Running σ) (t : Nat) : Ages r { r with now := max r.now t } :=
  .of_eq (Nat.le_max_left _ _) rfl

theorem send (e : Entry) (r : Running σ) : Ages r (r.send e).2 := by
  rw [Running.send]
  split
  · exact .of_eq (Nat.le_refl _) rfl
  · exact refl r

theorem stopInput [Operator σ] (r : Running σ) : Ages r r.stopInput.2 :=
  .of_eq (Nat.le_of_eq (now_stopInput r).symm) (left_stopInput r)

end Ages

variable [Operator σ]

@[simp] theorem now_close (r : Running σ) : r.close.now = r.now := by
  rw [close]
  split <;> rfl

@[simp] theorem left_close (r : Running σ) : r.close.output.left = r.output.left := by
  rw [close]
  split <;> rfl

@[simp] theorem now_digest (waiting : List Entry) (r : Running σ) : (r.digest waiting).now = r.now := by
  unfold digest
  dsimp only
  split
  · exact now_close _
  · rfl

@[simp] theorem left_digest (waiting : List Entry) (r : Running σ) :
    (r.digest waiting).output.left =
      r.output.left ++ (Chain.passAll waiting r.stages).left.map fun e => (r.now, e) := by
  unfold digest
  dsimp only
  split
  · exact left_close _
  · rfl

namespace Ages

theorem close (r : Running σ) : Ages r r.close := .of_eq (Nat.le_of_eq (now_close r).symm) (left_close r)

theorem digest (waiting : List Entry) (r : Running σ) : Ages r (r.digest waiting) := by
  refine ⟨Nat.le_of_eq (now_digest waiting r).symm, _, left_digest waiting r, fun x hx => ?_⟩
  obtain ⟨e, -, rfl⟩ := List.mem_map.1 hx
  exact ⟨Nat.le_refl _, Nat.le_of_eq (now_digest waiting r).symm⟩

theorem next? {limit : Nat} (h : r.next? limit = some r') : Ages r r' := by
  obtain ⟨-, ⟨e, rest, queue, rfl⟩ | ⟨-, round, had, rfl⟩ | ⟨-, -, t, -, -, rfl⟩⟩ := next?_eq_some h
  · exact digest _ r
  · exact .of_eq (Nat.le_refl _) rfl
  · exact .of_eq (Nat.le_max_left _ _) rfl

theorem run (limit : Nat) (r : Running σ) : Ages r (r.run limit) := by
  fun_induction Running.run limit r with
  | case1 r h => exact refl r
  | case2 r r' h ih => exact (next? h).trans ih

theorem elapse (limit : Nat) (r : Running σ) : Ages r (r.elapse limit) :=
  (run limit r).trans (setNow _ limit)

omit [Operator σ] in
theorem receive (v : Visit) (r : Running σ) : Ages r (r.receive v) := by
  rw [Running.receive]
  cases v.entry with
  | none => exact setNow r v.time
  | some e => exact (setNow r v.time).trans (send e _)

theorem host (deadline : Nat) (visits : List Visit) (r : Running σ) :
    Ages r (r.host deadline visits) := by
  induction visits generalizing r with
  | nil => exact run deadline r
  | cons v rest ih =>
    have worked := run (min v.time deadline) r
    simp only [Running.host]
    split
    · exact (worked.trans (receive v _)).trans (ih _)
    · exact worked.trans (run deadline _)

theorem drain (r : Running σ) : Ages r r.drain := by
  have alone : Ages r { r with jobs := [] } := .of_eq (Nat.le_refl _) rfl
  rw [Running.drain]
  dsimp only
  split
  · exact (alone.trans (digest _ _)).trans (close _)
  · exact alone

theorem halt (timeout : Nat) (senderHeld : Bool) (visits : List Visit) (r : Running σ) :
    Ages r (r.halt timeout senderHeld visits).2 := by
  have told : Ages r.stopInput.2 r.stopInput.2.shutDown := .of_eq (Nat.le_refl _) rfl
  have hosted := ((stopInput r).trans told).trans (host (r.now + timeout) visits _)
  have waited : Ages (r.stopInput.2.shutDown.host (r.now + timeout) visits)
      { r.stopInput.2.shutDown.host (r.now + timeout) visits with
        now := (r.stopInput.2.shutDown.host (r.now + timeout) visits).overAt (r.now + timeout)
          senderHeld } := .of_eq (le_overAt _ _ _) rfl
  exact (hosted.trans waited).trans (drain _)

theorem abandon (r : Running σ) : Ages r r.abandon := by
  have alone : Ages r { r with jobs := [] } := .of_eq (Nat.le_refl _) rfl
  rw [Running.abandon]
  dsimp only
  split
  · exact alone.trans (digest _ _)
  · exact alone

theorem haltWithin (timeout : Span) (senderHeld : Bool) (visits : List Visit) (r : Running σ) :
    Ages r (r.haltWithin timeout senderHeld visits).2 := by
  rw [Running.haltWithin]
  split
  · exact halt _ senderHeld visits r
  · exact abandon r

theorem reaches {asked : List Failure} (history : r.Reaches asked r') : Ages r r' := by
  induction history with
  | start => exact refl r
  | send e before ih => exact ih.trans (send e _)
  | @take asked r front back queue before ih =>
    have back : Ages (r.digest front) (r.take front back) := .of_eq (Nat.le_refl _) rfl
    exact (ih.trans (digest front r)).trans back
  | turn order had before ih => exact ih.trans (.of_eq (Nat.le_refl _) rfl)
  | wake time before ih => exact ih.trans (.of_eq (Nat.le_max_left _ _) rfl)
  | wait time before ih => exact ih.trans (setNow _ time)
  | ask first before ih => exact ih.trans (.of_eq (Nat.le_refl _) rfl)

end Ages

/-! ### The deadline of a stop -/

theorem run_of_le {limit : Nat} (reached : limit ≤ r.now) : r.run limit = r := by
  rw [run]
  split
  · rfl
  · next r' next => exact absurd (next?_eq_some next).1 (Nat.not_lt.2 reached)

theorem now_run_le {limit t : Nat} (now : r.now ≤ t) (reached : limit ≤ t) : (r.run limit).now ≤ t := by
  fun_induction run limit r with
  | case1 r h => exact now
  | case2 r r' h ih =>
    refine ih ?_
    obtain ⟨-, ⟨e, rest, queue, rfl⟩ | ⟨-, round, had, rfl⟩ | ⟨-, -, u, -, early, rfl⟩⟩ := next?_eq_some h
    · rw [now_digest]
      exact now
    · exact now
    · exact Nat.max_le.2 ⟨now, by omega⟩

theorem now_elapse (limit : Nat) (r : Running σ) : (r.elapse limit).now = max r.now limit := by
  have stays : (r.run limit).now ≤ max r.now limit :=
    now_run_le (Nat.le_max_left _ _) (Nat.le_max_right _ _)
  have onward := (Ages.run limit r).onward
  show max (r.run limit).now limit = max r.now limit
  omega

omit [Operator σ] in
theorem now_receive (v : Visit) (r : Running σ) : (r.receive v).now = max r.now v.time := by
  rw [receive]
  cases v.entry with
  | none => rfl
  | some e => exact now_send e _

theorem now_host_le {deadline : Nat} (visits : List Visit) (now : r.now ≤ deadline) :
    (r.host deadline visits).now ≤ deadline := by
  induction visits generalizing r with
  | nil => exact now_run_le now (Nat.le_refl _)
  | cons v rest ih =>
    have worked : (r.run (min v.time deadline)).now ≤ deadline := now_run_le now (Nat.min_le_right _ _)
    simp only [host]
    split
    · next comes =>
      have early : v.time < deadline := by
        rw [Bool.and_eq_true, decide_eq_true_eq] at comes
        exact comes.1
      refine ih ?_
      rw [now_receive]
      exact Nat.max_le.2 ⟨worked, Nat.le_of_lt early⟩
    · exact now_run_le worked (Nat.le_refl _)

@[simp] theorem now_drain (r : Running σ) : r.drain.now = r.now := by
  rw [drain]
  split
  · rw [now_close, now_digest]
  · rfl

/-- A stop ends at its deadline or before. -/
theorem now_halt_le (timeout : Nat) (senderHeld : Bool) (visits : List Visit) (r : Running σ) :
    (r.halt timeout senderHeld visits).2.now ≤ r.now + timeout := by
  have begun : r.stopInput.2.shutDown.now ≤ r.now + timeout := by
    show r.stopInput.2.now ≤ r.now + timeout
    rw [now_stopInput]
    exact Nat.le_add_right _ _
  have hosted := now_host_le visits begun
  rw [halt, now_drain]
  exact overAt_le senderHeld hosted

@[simp] theorem now_abandon (r : Running σ) : r.abandon.now = r.now := by
  rw [abandon]
  split
  · rw [now_digest]
  · rfl

theorem now_haltWithin_le (timeout : Span) (senderHeld : Bool) (visits : List Visit) (r : Running σ) :
    (r.haltWithin timeout senderHeld visits).2.now ≤ r.now + timeout.ceilMilliseconds := by
  rw [haltWithin]
  split
  · exact now_halt_le _ senderHeld visits r
  · rw [now_abandon]
    exact Nat.le_add_right _ _

end Running

end LogIntake
