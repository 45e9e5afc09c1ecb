import LogIntake.Batcher

/-!
What goes into a batcher comes out of it. Each operation is described by one relation between the
entries that came, the batches that were cut and the buffer before and after; descriptions of
operations in a row compose.
-/
namespace LogIntake.Batcher

def Runs (b : Batcher) : Prop := ∃ deadline, b.phase = .running deadline

/-- The buffer has room, and nothing is in it unless the batcher runs. -/
structure Sound (b : Batcher) : Prop where
  roomy : b.buffer.length < b.limits.count
  idle : ¬ b.Runs → b.buffer = []

def Fits (limits : BatchLimits) (batch : Batch) : Prop :=
  0 < batch.length ∧ batch.length ≤ limits.count

def pairs : BatchLimits := ⟨2, 100, by decide, by decide⟩

/-- From `b` to `b'` the entries came in and the batches were cut, with nothing lost, doubled or moved. -/
structure Cuts (b : Batcher) (entries : List Entry) (batches : List Batch) (b' : Batcher) : Prop where
  conserved : b.buffer ++ entries = batches.flatten ++ b'.buffer
  fits : ∀ batch ∈ batches, Fits b.limits batch
  limits : b'.limits = b.limits
  sound : b'.Sound

namespace Cuts

variable {b b' b'' : Batcher} {entries more : List Entry} {batches others : List Batch}

theorem refl (h : b.Sound) : Cuts b [] [] b where
  conserved := by simp
  fits := by simp
  limits := rfl
  sound := h

theorem trans (h : Cuts b entries batches b') (h' : Cuts b' more others b'') :
    Cuts b (entries ++ more) (batches ++ others) b'' where
  conserved := by
    calc b.buffer ++ (entries ++ more) = batches.flatten ++ (b'.buffer ++ more) := by
          rw [← List.append_assoc, h.conserved, List.append_assoc]
      _ = (batches ++ others).flatten ++ b''.buffer := by
          rw [h'.conserved, List.flatten_append, List.append_assoc]
  fits batch hb := by
    rcases List.mem_append.1 hb with hb | hb
    · exact h.fits batch hb
    · exact h.limits ▸ h'.fits batch hb
  limits := h'.limits.trans h.limits
  sound := h'.sound

end Cuts

theorem ofSettings_eq_ok {s : BatchSettings} {b : Batcher} (h : ofSettings s = .ok b) :
    b.limits.count = s.maxFlushCount ∧ b.phase = .created ∧ b.buffer = [] := by
  unfold ofSettings BatchLimits.ofSettings at h
  split at h
  · simp [Except.map] at h
  · split at h
    · simp [Except.map] at h
    · obtain rfl := Except.ok.inj h
      exact ⟨rfl, rfl, rfl⟩

theorem sound_ofSettings {s : BatchSettings} {b : Batcher} (h : ofSettings s = .ok b) : b.Sound := by
  obtain ⟨-, -, hb⟩ := ofSettings_eq_ok h
  exact ⟨by simpa [hb] using b.limits.count_pos, fun _ => hb⟩

/-! ### The operations -/

theorem sound_of_buffer_eq_nil {b : Batcher} (h : b.buffer = []) : b.Sound :=
  ⟨by simpa [h] using b.limits.count_pos, fun _ => h⟩

/-- Cutting leaves nothing behind, whatever the batcher does next. -/
theorem cuts_cut {b : Batcher} (h : b.Sound) (phase : Phase) :
    Cuts b [] b.cut.1.toList { b.cut.2 with phase } := by
  have hs : Sound { b.cut.2 with phase } := sound_of_buffer_eq_nil (cut_buffer b)
  refine ⟨?_, ?_, cut_limits b, hs⟩
  · unfold cut
    split
    · next he => simp [List.isEmpty_iff.1 he]
    · simp
  · intro batch hb
    rw [cut] at hb
    split at hb
    · simp at hb
    · next hne =>
      obtain rfl : batch = b.buffer := by simpa using hb
      have hpos : 0 < b.buffer.length := List.length_pos_iff.2 (by simpa using hne)
      exact ⟨hpos, Nat.le_of_lt h.roomy⟩

theorem start_eq_ok {b b' : Batcher} {now : Nat} (h : b.start now = .ok b') :
    b.phase = .created ∧ b' = { b with phase := .running (b.nextDeadline now) } := by
  rw [start] at h
  split at h
  · next hp => exact ⟨hp, (Except.ok.inj h).symm⟩
  · simp at h

theorem cuts_start {b b' : Batcher} {now : Nat} (hs : b.Sound) (h : b.start now = .ok b') :
    Cuts b [] [] b' := by
  obtain ⟨hp, rfl⟩ := start_eq_ok h
  have hb : b.buffer = [] := hs.idle (by simp [Runs, hp])
  exact ⟨by simp, by simp, rfl, sound_of_buffer_eq_nil hb⟩

theorem add_eq_error_iff {b : Batcher} {now : Nat} {e : Entry} {cause : BatcherError} :
    b.add now e = .error cause ↔ ¬ b.Runs ∧ cause = .notRunning := by
  unfold add Runs
  cases hp : b.phase with
  | running deadline =>
    simp only
    split <;> simp
  | created => simp [eq_comm]
  | stopped => simp [eq_comm]

theorem cuts_add {b b' : Batcher} {now : Nat} {e : Entry} {full : Option Batch} (hs : b.Sound)
    (h : b.add now e = .ok (full, b')) :
    Cuts b [e] full.toList b' ∧ ∀ batch ∈ full, batch.length = b.limits.count := by
  rw [add] at h
  split at h
  · next deadline hp =>
    have hroom := hs.roomy
    have hlen : (b.buffer ++ [e]).length = b.buffer.length + 1 := by simp
    simp only at h
    split at h
    · next hfull =>
      obtain ⟨rfl, rfl⟩ := by simpa using h
      have hcount : (b.buffer ++ [e]).length = b.limits.count := by omega
      refine ⟨⟨by simp, ?_, rfl, sound_of_buffer_eq_nil rfl⟩, by simpa using hcount⟩
      intro batch hb
      obtain rfl : batch = b.buffer ++ [e] := by simpa using hb
      exact ⟨by omega, by omega⟩
    · next hroomy =>
      obtain ⟨rfl, rfl⟩ := by simpa using h
      refine ⟨⟨by simp, by simp, rfl, ?_, ?_⟩, by simp⟩
      · show (b.buffer ++ [e]).length < b.limits.count
        omega
      · intro hidle
        exact absurd ⟨deadline, rfl⟩ hidle
  · simp at h

theorem cuts_flush {b : Batcher} (h : b.Sound) (now : Nat) :
    Cuts b [] (b.flush now).1.toList (b.flush now).2 := by
  rw [flush]
  split
  · split
    · next batch rest hc =>
      have hcut := cuts_cut h (.running (rest.nextDeadline now))
      rw [hc] at hcut
      exact hcut
    · next rest hc =>
      have hcut := cuts_cut h rest.phase
      rw [hc] at hcut
      exact hcut
  · exact .refl h

theorem cuts_elapse {b : Batcher} (h : b.Sound) (limit : Nat) :
    Cuts b [] ((b.elapse limit).1.toList.map Prod.snd) (b.elapse limit).2 := by
  rw [elapse]
  split
  · next deadline hp =>
    split
    · have hcut := cuts_cut h (.running (b.cut.2.deadlineAfter limit deadline))
      simpa [Option.toList_map, Function.comp_def] using hcut
    · exact .refl h
  · exact .refl h

theorem runs_elapse {b : Batcher} (h : b.Runs) (limit : Nat) : (b.elapse limit).2.Runs := by
  obtain ⟨deadline, hp⟩ := h
  rw [elapse]
  rw [hp]
  dsimp only
  split
  · exact ⟨_, rfl⟩
  · exact ⟨deadline, hp⟩

theorem runs_add {b b' : Batcher} {now : Nat} {e : Entry} {full : Option Batch}
    (h : b.add now e = .ok (full, b')) : b'.Runs := by
  rw [add] at h
  split at h
  · simp only at h
    split at h
    · obtain ⟨-, rfl⟩ := by simpa using h
      exact ⟨_, rfl⟩
    · obtain ⟨-, rfl⟩ := by simpa using h
      exact ⟨_, rfl⟩
  · simp at h

/-- A batcher that runs takes all entries, at whatever times they come. -/
theorem cuts_feed {b : Batcher} (hs : b.Sound) (hr : b.Runs) (entries : List (Nat × Entry)) :
    Cuts b (entries.map Prod.snd) ((b.feed entries).1.map Prod.snd) (b.feed entries).2 ∧
      (b.feed entries).2.Runs := by
  induction entries generalizing b with
  | nil => exact ⟨.refl hs, hr⟩
  | cons entry rest ih =>
    obtain ⟨now, e⟩ := entry
    have hticked := cuts_elapse hs now
    have hrun := runs_elapse hr now
    rw [feed]
    dsimp only
    cases ha : (b.elapse now).2.add now e with
    | error cause => exact absurd hrun (add_eq_error_iff.1 ha).1
    | ok added =>
      obtain ⟨full, b'⟩ := added
      have hadd := (cuts_add hticked.sound ha).1
      obtain ⟨hrest, hruns⟩ := ih hadd.sound (runs_add ha)
      refine ⟨?_, hruns⟩
      have h := (hticked.trans hadd).trans hrest
      simpa [Option.toList_map, Function.comp_def, List.append_assoc] using h

theorem cuts_stop {b : Batcher} (h : b.Sound) : Cuts b [] b.stop.1.toList b.stop.2 := by
  rw [stop]
  split
  · exact cuts_cut h .stopped
  · next hp =>
    have hb : b.buffer = [] := h.idle fun ⟨deadline, hd⟩ => hp deadline hd
    exact ⟨by simp, by simp, rfl, sound_of_buffer_eq_nil hb⟩

@[simp] theorem phase_stop (b : Batcher) : b.stop.2.phase = .stopped := by
  rw [stop]
  split <;> rfl

theorem buffer_stop {b : Batcher} (h : b.Sound) : b.stop.2.buffer = [] :=
  (cuts_stop h).sound.idle (by simp [Runs])

/-! ### The timer -/

theorem deadlineAfter_of_le {b : Batcher} {limit deadline : Nat} (h : deadline < limit)
    (hle : limit ≤ b.nextDeadline deadline) : b.deadlineAfter limit deadline = b.nextDeadline deadline := by
  have hi := b.limits.interval_pos
  simp only [nextDeadline] at hle
  have hq : (limit - deadline + b.limits.interval - 1) / b.limits.interval = 1 := by
    apply Nat.div_eq_of_lt_le <;> omega
  rw [deadlineAfter, hq, Nat.one_mul, nextDeadline]

theorem deadlineAfter_next {b : Batcher} {limit deadline : Nat} (h : b.nextDeadline deadline < limit) :
    b.deadlineAfter limit deadline = b.deadlineAfter limit (b.nextDeadline deadline) := by
  have hi := b.limits.interval_pos
  simp only [nextDeadline] at h
  have hs : limit - deadline + b.limits.interval - 1 =
      limit - (deadline + b.limits.interval) + b.limits.interval - 1 + b.limits.interval := by omega
  rw [deadlineAfter, deadlineAfter, nextDeadline, hs, Nat.add_div_right _ hi, Nat.succ_mul]
  omega

theorem cut_of_buffer_eq_nil {b : Batcher} (h : b.buffer = []) : b.cut = (none, b) := by
  simp [cut, h]

theorem elapse_of_due {b : Batcher} {deadline limit : Nat} (hp : b.phase = .running deadline)
    (hd : deadline < limit) :
    b.elapse limit = (b.cut.1.map fun batch => (deadline, batch),
      { b.cut.2 with phase := .running (b.deadlineAfter limit deadline) }) := by
  simp [elapse, hp, hd, deadlineAfter]

theorem elapse_of_not_due {b : Batcher} {deadline limit : Nat} (hp : b.phase = .running deadline)
    (hd : ¬ deadline < limit) : b.elapse limit = (none, b) := by
  simp [elapse, hp, hd]

/-- As time passes, the timer is served at its deadline and then again, up to the limit. -/
theorem elapse_eq_elapse_tick {b : Batcher} {deadline limit : Nat} (hp : b.phase = .running deadline)
    (hd : deadline < limit) :
    b.elapse limit = (b.tick.1.map fun batch => (deadline, batch), (b.tick.2.elapse limit).2) ∧
      (b.tick.2.elapse limit).1 = none := by
  have ht : b.tick = (b.cut.1, { b.cut.2 with phase := .running (b.nextDeadline deadline) }) := by
    simp [tick, hp, nextDeadline]
  have hc : ({ b.cut.2 with phase := .running (b.nextDeadline deadline) } : Batcher).cut =
      (none, { b.cut.2 with phase := .running (b.nextDeadline deadline) }) :=
    cut_of_buffer_eq_nil (cut_buffer b)
  rw [elapse_of_due hp hd, ht]
  by_cases hlt : b.nextDeadline deadline < limit
  · rw [elapse_of_due rfl hlt, hc, deadlineAfter_next hlt]
    simp [deadlineAfter]
  · rw [elapse_of_not_due rfl hlt, deadlineAfter_of_le hd (Nat.le_of_not_lt hlt)]
    exact ⟨rfl, rfl⟩

/-- The timer is served at one deadline after another, as long as they come before the limit. -/
inductive Ticks (limit : Nat) : Batcher → List (Nat × Batch) → Batcher → Prop
  | rest {b : Batcher} (quiet : ∀ deadline, b.phase = .running deadline → limit ≤ deadline) :
      Ticks limit b [] b
  | next {b last : Batcher} {deadline : Nat} {batches : List (Nat × Batch)}
      (runs : b.phase = .running deadline) (due : deadline < limit)
      (later : Ticks limit b.tick.2 batches last) :
      Ticks limit b ((b.tick.1.map fun batch => (deadline, batch)).toList ++ batches) last

theorem elapse_of_quiet {limit : Nat} {b : Batcher}
    (quiet : ∀ deadline, b.phase = .running deadline → limit ≤ deadline) : b.elapse limit = (none, b) := by
  cases hp : b.phase with
  | running deadline => exact elapse_of_not_due hp (Nat.not_lt.2 (quiet deadline hp))
  | created => simp [elapse, hp]
  | stopped => simp [elapse, hp]

theorem tick_phase {b : Batcher} {deadline : Nat} (runs : b.phase = .running deadline) :
    b.tick.2.phase = .running (b.nextDeadline deadline) := by
  simp [tick, runs, nextDeadline]

theorem ticks_elapse_of_running {limit deadline : Nat} {b : Batcher} (runs : b.phase = .running deadline) :
    Ticks limit b (b.elapse limit).1.toList (b.elapse limit).2 := by
  by_cases due : deadline < limit
  · obtain ⟨served, none⟩ := elapse_eq_elapse_tick runs due
    have later : Ticks limit b.tick.2 _ _ := ticks_elapse_of_running (tick_phase runs)
    -- the first tick empties the buffer, so the later ones give nothing
    rw [none] at later
    rw [served]
    simpa using Ticks.next runs due later
  · have quiet : ∀ d, b.phase = .running d → limit ≤ d := by
      intro d hd
      obtain rfl : deadline = d := by simpa [runs] using hd
      exact Nat.le_of_not_lt due
    rw [elapse_of_quiet quiet]
    exact .rest quiet
termination_by limit - deadline
decreasing_by
  have := b.limits.interval_pos
  simp only [nextDeadline]
  omega

theorem ticks_elapse (limit : Nat) (b : Batcher) :
    Ticks limit b (b.elapse limit).1.toList (b.elapse limit).2 := by
  by_cases running : ∃ deadline, b.phase = .running deadline
  · obtain ⟨deadline, runs⟩ := running
    exact ticks_elapse_of_running runs
  · have quiet : ∀ deadline, b.phase = .running deadline → limit ≤ deadline :=
      fun deadline runs => absurd ⟨deadline, runs⟩ running
    rw [elapse_of_quiet quiet]
    exact .rest quiet

/-- Letting time pass is serving the timer at each of its deadlines. -/
theorem ticks_iff {limit : Nat} {b last : Batcher} {batches : List (Nat × Batch)} :
    Ticks limit b batches last ↔ batches = (b.elapse limit).1.toList ∧ last = (b.elapse limit).2 := by
  constructor
  · intro ticks
    induction ticks with
    | rest quiet => simp [elapse_of_quiet quiet]
    | next runs due later ih =>
      obtain ⟨served, none⟩ := elapse_eq_elapse_tick runs due
      obtain ⟨rfl, rfl⟩ := ih
      simp [served, none]
  · rintro ⟨rfl, rfl⟩
    exact ticks_elapse limit b

end LogIntake.Batcher
