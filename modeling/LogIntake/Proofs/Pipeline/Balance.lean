import LogIntake.Proofs.Pipeline.Calls
import Mathlib.Data.List.Nodup
import Mathlib.Data.List.Range

/-!
Starting and stopping are balanced. Whatever fails and however a pipeline comes to its end: an operator
that started is stopped exactly once and handed entries only in between, and no other one is stopped but
an input that did not start.
-/
namespace LogIntake

variable {σ : Type}

/-! ### The calls on one operator -/

namespace Deed

@[simp] def isStart : Deed → Bool
  | start => true
  | _ => false

@[simp] def isStop : Deed → Bool
  | stop => true
  | _ => false

end Deed

def callsAt (place : Nat) (calls : List (Call σ)) : List (Call σ) :=
  calls.filter fun c => c.place = place

/-- The places of the operators that are called for some deeds, in the order of the calls. -/
def placesOf (is : Deed → Bool) (calls : List (Call σ)) : List Nat :=
  (calls.filter fun c => is c.deed).map Call.place

section Append

variable (place : Nat) (is : Deed → Bool) (calls more : List (Call σ)) (c : Call σ)

@[simp] theorem callsAt_append :
    callsAt place (calls ++ more) = callsAt place calls ++ callsAt place more := by
  simp [callsAt]

theorem callsAt_cons : callsAt place (c :: calls) =
    if c.place = place then c :: callsAt place calls else callsAt place calls := by
  simp [callsAt, List.filter_cons]

@[simp] theorem placesOf_append :
    placesOf is (calls ++ more) = placesOf is calls ++ placesOf is more := by
  simp [placesOf]

theorem placesOf_cons : placesOf is (c :: calls) =
    if is c.deed then c.place :: placesOf is calls else placesOf is calls := by
  simp only [placesOf, List.filter_cons]
  split <;> rfl

end Append

variable [Operator σ]

/-- What may be asked of one operator, from its start to its stop. -/
inductive Life (isInput : Prop) : List (Call σ) → Prop
  /-- It is never called. -/
  | idle : Life isInput []
  /-- It does not start, and that is all. -/
  | refused {c : Call σ} (refuses : c.Refuses) (behind : ¬ isInput) : Life isInput [c]
  /-- An input that does not start is stopped all the same. -/
  | cleared {c d : Call σ} (refuses : c.Refuses) (input : isInput) (stops : d.Stops) :
      Life isInput [c, d]
  /-- It starts, is handed entries, and is stopped. -/
  | full {c d : Call σ} {work : List (Call σ)} (starts : c.Starts) (works : ∀ w ∈ work, w.Processes)
      (stops : d.Stops) : Life isInput (c :: work ++ [d])

/-- The calls on the operators of a pipeline that may have an input, which is then the first of them. -/
structure Balanced (hasInput : Bool) (count : Nat) (calls : List (Call σ)) : Prop where
  lives : ∀ place, Life (hasInput = true ∧ place = 0) (callsAt place calls)
  /-- The last operator starts first. -/
  started : ∃ first ≤ count, placesOf Deed.isStart calls = (List.range' first (count - first)).reverse
  /-- The first operator is stopped first, unless one of them breaks. -/
  stopped : (∀ c ∈ calls, ¬ c.Breaks) → (placesOf Deed.isStop calls).Pairwise (· < ·)

/-! ### Calls of one kind -/

omit [Operator σ] in
theorem callsAt_eq_nil {place : Nat} {calls : List (Call σ)} (h : ∀ c ∈ calls, c.place ≠ place) :
    callsAt place calls = [] := by
  simpa [callsAt] using h

namespace AtEach

variable {p : Call σ → Prop} {places : List Nat} {calls : List (Call σ)} {place : Nat}

omit [Operator σ] in
theorem callsAt_of_not_mem (h : AtEach p places calls) (absent : place ∉ places) :
    callsAt place calls = [] := by
  refine callsAt_eq_nil fun c hc same => absent ?_
  rw [← h.1, ← same]
  exact List.mem_map_of_mem hc

omit [Operator σ] in
theorem callsAt_of_mem (h : AtEach p places calls) (distinct : places.Nodup) (present : place ∈ places) :
    ∃ c, callsAt place calls = [c] ∧ p c := by
  induction calls generalizing places with
  | nil =>
    obtain ⟨rfl, -⟩ := h
    simp at present
  | cons c rest ih =>
    obtain ⟨rfl, each⟩ := h
    obtain ⟨fresh, distinct⟩ := List.nodup_cons.1 distinct
    have behind : AtEach p (rest.map Call.place) rest :=
      ⟨rfl, fun d hd => each d (List.mem_cons_of_mem c hd)⟩
    rw [callsAt_cons]
    split
    · next here =>
      rw [behind.callsAt_of_not_mem (here ▸ fresh)]
      exact ⟨c, rfl, each c List.mem_cons_self⟩
    · next elsewhere =>
      refine ih behind distinct ?_
      simpa [Ne.symm elsewhere] using present

end AtEach

section Places

variable {is : Deed → Bool} {places : List Nat} {calls : List (Call σ)}

omit [Operator σ] in
theorem placesOf_of_deed {deed : Deed} (h : ∀ c ∈ calls, c.deed = deed) :
    placesOf is calls = if is deed then calls.map Call.place else [] := by
  have same : calls.filter (fun c => is c.deed) = calls.filter fun _ => is deed :=
    List.filter_congr fun c hc => by rw [h c hc]
  rw [placesOf, same]
  cases is deed <;> simp

theorem placesOf_begins {low : Nat} (h : AtEach (Call.Begins low) places calls) :
    placesOf is calls = if is .start then places else [] := by
  rw [placesOf_of_deed fun c hc => (h.2 c hc).elim (·.1) (·.1.1), h.1]

theorem placesOf_starts (h : AtEach Call.Starts places calls) :
    placesOf is calls = if is .start then places else [] := by
  rw [placesOf_of_deed fun c hc => (h.2 c hc).1, h.1]

omit [Operator σ] in
theorem placesOf_stops (h : AtEach Call.Stops places calls) :
    placesOf is calls = if is .stop then places else [] := by
  rw [placesOf_of_deed h.2, h.1]

omit [Operator σ] in
theorem placesOf_processes (h : ∀ c ∈ calls, c.Processes) :
    placesOf Deed.isStart calls = [] ∧ placesOf Deed.isStop calls = [] := by
  have quiet : ∀ is : Deed → Bool, (∀ e, is (.process e) = false) → placesOf is calls = [] := by
    intro is other
    rw [placesOf, List.map_eq_nil_iff, List.filter_eq_nil_iff]
    intro c hc
    obtain ⟨e, he⟩ := h c hc
    simp [he, other]
  exact ⟨quiet _ fun _ => rfl, quiet _ fun _ => rfl⟩

omit [Operator σ] in
theorem place_of_mem_callsAt {place : Nat} {c : Call σ} (h : c ∈ callsAt place calls) : c.place = place := by
  simpa using (List.mem_filter.1 h).2

omit [Operator σ] in
theorem Chain.Hands.callsAt {low : Nat} (h : Chain.Hands low calls) (place : Nat) :
    Chain.Hands low (callsAt place calls) := fun c hc => h c (List.mem_of_mem_filter hc)

end Places

/-! ### Whole runs -/

section Whole

variable {low count : Nat} {front back : List Nat} {starts work stops more last : List (Call σ)}

/-- What is asked of an operator that begins, whether it is stopped with the first ones or the last. An input
that does not start is handed nothing. -/
theorem life_of_run {isInput : Prop} {place : Nat} (input : place < low → isInput)
    (began : AtEach (Call.Begins low) (List.range' 0 count).reverse starts)
    (works : Chain.Hands low work) (worksOn : Chain.Hands low more)
    (rest : ∀ c ∈ more, c.place ∉ front)
    (first : AtEach Call.Stops front stops) (second : AtEach Call.Stops back last)
    (all : (front ++ back).Perm (List.range' 0 count))
    (within : ∀ c ∈ work ++ more, c.place < count) :
    Life isInput (callsAt place (starts ++ work ++ stops ++ more ++ last)) := by
  have each : place ∈ front ++ back ↔ place < count := by simp [all.mem_iff]
  have distinct : (front ++ back).Nodup := all.nodup_iff.2 List.nodup_range'
  obtain ⟨frontDistinct, backDistinct, apart⟩ := List.nodup_append.1 distinct
  by_cases hplace : place < count
  · obtain ⟨c, hc, begins⟩ := began.callsAt_of_mem (List.nodup_reverse.2 List.nodup_range')
      (by simpa using hplace)
    have among : c ∈ callsAt place starts := by rw [hc]; exact .head []
    have here : c.place = place := place_of_mem_callsAt among
    -- one way or the other, the operator is stopped once, after all that it is handed
    have full : ∀ {handed : List (Call σ)} {d : Call σ}, Chain.Hands low handed →
        (∀ w ∈ handed, w.place = place) → d.Stops → Life isInput (c :: handed ++ [d]) := by
      intro handed d hands there stops
      obtain starts | ⟨refuses, early⟩ := begins
      · exact .full starts (fun w hw => (hands w hw).1) stops
      · have idle : handed = [] := by
          refine List.eq_nil_iff_forall_not_mem.2 fun w hw => ?_
          have late := (hands w hw).2
          have same := there w hw
          omega
        rw [idle]
        exact .cleared refuses (input (here ▸ early)) stops
    rcases List.mem_append.1 (each.2 hplace) with hf | hb
    · obtain ⟨d, hd, stops⟩ := first.callsAt_of_mem frontDistinct hf
      have absent : place ∉ back := fun hb => apart place hf place hb rfl
      have quiet : callsAt place more = [] :=
        callsAt_eq_nil fun c hc same => rest c hc (same ▸ hf)
      simpa [hc, hd, quiet, second.callsAt_of_not_mem absent] using
        full (works.callsAt place) (fun w => place_of_mem_callsAt) stops
    · obtain ⟨d, hd, stops⟩ := second.callsAt_of_mem backDistinct hb
      have absent : place ∉ front := fun hf => apart place hf place hb rfl
      have working := (works.append worksOn).callsAt place
      simpa [hc, hd, first.callsAt_of_not_mem absent] using
        full working (fun w => place_of_mem_callsAt) stops
  · have outside : place ∉ front ++ back := fun h => hplace (each.1 h)
    have unworked : callsAt place (work ++ more) = [] :=
      callsAt_eq_nil fun c hc same => hplace (same ▸ within c hc)
    rw [List.mem_append, not_or] at outside
    rw [callsAt_append, List.append_eq_nil_iff] at unworked
    simpa [began.callsAt_of_not_mem (by simpa using hplace), unworked,
      first.callsAt_of_not_mem outside.1, second.callsAt_of_not_mem outside.2] using Life.idle

/-- All operators begin, entries are handed to them, some are stopped, and then the others are, with
entries for these in between. -/
theorem balanced_of_run {hasInput : Bool} (input : ∀ place < low, hasInput = true ∧ place = 0)
    (began : AtEach (Call.Begins low) (List.range' 0 count).reverse starts)
    (works : Chain.Hands low work) (worksOn : Chain.Hands low more)
    (rest : ∀ c ∈ more, c.place ∉ front)
    (first : AtEach Call.Stops front stops) (second : AtEach Call.Stops back last)
    (all : (front ++ back).Perm (List.range' 0 count))
    (ordered : (∀ c ∈ work, ¬ c.Breaks) → (front ++ back).Pairwise (· < ·))
    (within : ∀ c ∈ work ++ more, c.place < count) :
    placesOf Deed.isStart (starts ++ work ++ stops ++ more ++ last) = (List.range' 0 count).reverse ∧
      Balanced hasInput count (starts ++ work ++ stops ++ more ++ last) := by
  have handed := placesOf_processes fun c hc => (works c hc).1
  have handedOn := placesOf_processes fun c hc => (worksOn c hc).1
  have order : placesOf Deed.isStart (starts ++ work ++ stops ++ more ++ last) =
      (List.range' 0 count).reverse := by
    simp [placesOf_begins began, placesOf_stops first, placesOf_stops second, handed, handedOn]
  refine ⟨order, fun place =>
    life_of_run (input place) began works worksOn rest first second all within,
    ⟨0, Nat.zero_le _, order⟩, fun calm => ?_⟩
  simpa [placesOf_begins began, placesOf_stops first, placesOf_stops second, handed, handedOn] using
    ordered fun c hc => calm c (by simp [hc])

end Whole

section Ends

variable {hasInput : Bool} {low count total : Nat} {starts work more stops stopsIn : List (Call σ)}

theorem range_append (sum : low + count = total) :
    List.range' 0 low ++ List.range' low count = List.range' 0 total := by
  have joined := @List.range'_append_1 0 low count
  rwa [Nat.zero_add, sum] at joined

/-- The operators in front are stopped while the others still work. -/
theorem balanced_of_stopped (sum : low + count = total)
    (input : ∀ place < low, hasInput = true ∧ place = 0)
    (began : AtEach (Call.Begins low) (List.range' 0 total).reverse starts)
    (hands : Chain.Hands low work) (frontStops : AtEach Call.Stops (List.range' 0 low) stopsIn)
    (handsMore : Chain.Hands low more) (stopped : AtEach Call.Stops (List.range' low count) stops)
    (within : ∀ c ∈ starts ++ work ++ stopsIn ++ more ++ stops, c.place < total) :
    placesOf Deed.isStart (starts ++ work ++ stopsIn ++ more ++ stops) = (List.range' 0 total).reverse ∧
      Balanced hasInput total (starts ++ work ++ stopsIn ++ more ++ stops) := by
  have parts := range_append sum
  refine balanced_of_run input began hands handsMore (fun c hc => ?_) frontStops stopped (by rw [parts])
    (fun _ => ?_) fun c hc => within c ?_
  · simpa using (handsMore c hc).2
  · rw [parts]
    exact List.pairwise_lt_range'
  · simp only [List.mem_append] at hc ⊢
    tauto

/-- One of the operators breaks. They are stopped before those in front. -/
theorem balanced_of_broken (sum : low + count = total)
    (input : ∀ place < low, hasInput = true ∧ place = 0)
    (began : AtEach (Call.Begins low) (List.range' 0 total).reverse starts)
    (hands : Chain.Hands low work) (broken : ∃ c ∈ work, c.Breaks)
    (stopped : AtEach Call.Stops (List.range' low count) stops)
    (frontStops : AtEach Call.Stops (List.range' 0 low) stopsIn)
    (within : ∀ c ∈ starts ++ work ++ stops ++ stopsIn, c.place < total) :
    placesOf Deed.isStart (starts ++ work ++ stops ++ stopsIn) = (List.range' 0 total).reverse ∧
      Balanced hasInput total (starts ++ work ++ stops ++ stopsIn) := by
  have parts : (List.range' low count ++ List.range' 0 low).Perm (List.range' 0 total) :=
    range_append sum ▸ List.perm_append_comm
  have quiet : Chain.Hands low ([] : List (Call σ)) := by simp [Chain.Hands]
  have run := @balanced_of_run σ _ low total _ _ starts work stops [] stopsIn hasInput input began hands
    quiet (by simp) stopped frontStops parts (fun calm => ?_) fun c hc => within c ?_
  · simpa using run
  · obtain ⟨c, hc, breaks⟩ := broken
    exact absurd breaks (calm c hc)
  · simp only [List.mem_append, List.not_mem_nil, or_false] at hc ⊢
    tauto

end Ends

theorem life_of_rollback {isInput : Prop} {low count place : Nat} {starts stops : List (Call σ)}
    (started : AtEach Call.Starts (List.range' low count).reverse starts)
    (stopped : AtEach Call.Stops (List.range' low count) stops) :
    Life isInput (callsAt place starts ++ callsAt place stops) := by
  by_cases present : place ∈ List.range' low count
  · obtain ⟨c, hc, starts⟩ := started.callsAt_of_mem (List.nodup_reverse.2 List.nodup_range')
      (List.mem_reverse.2 present)
    obtain ⟨d, hd, stops⟩ := stopped.callsAt_of_mem List.nodup_range' present
    rw [hc, hd]
    exact Life.full starts (by simp) stops
  · rw [started.callsAt_of_not_mem (by simpa using present), stopped.callsAt_of_not_mem present]
    exact Life.idle

/-- An operator behind the input does not start. -/
theorem balanced_of_refused {hasInput : Bool} {count behind : Nat} {c : Call σ}
    {starts stops : List (Call σ)} (refuses : c.Refuses) (sum : c.place + 1 + behind = count)
    (notInput : hasInput = true → 0 < c.place)
    (started : AtEach Call.Starts (List.range' (c.place + 1) behind).reverse starts)
    (stopped : AtEach Call.Stops (List.range' (c.place + 1) behind) stops) :
    placesOf Deed.isStart (starts ++ c :: stops) = (List.range' c.place (count - c.place)).reverse ∧
      Balanced hasInput count (starts ++ c :: stops) := by
  have length : count - c.place = behind + 1 := by omega
  have order : placesOf Deed.isStart (starts ++ c :: stops) =
      (List.range' c.place (count - c.place)).reverse := by
    simp [placesOf_cons, placesOf_starts started, placesOf_stops stopped, refuses.1, length,
      List.range'_succ]
  refine ⟨order, fun place => ?_, ⟨c.place, by omega, order⟩, fun _ => ?_⟩
  · rw [callsAt_append, callsAt_cons]
    split
    · next here =>
      subst here
      rw [started.callsAt_of_not_mem (by simp), stopped.callsAt_of_not_mem (by simp)]
      refine .refused refuses fun ⟨input, first⟩ => ?_
      exact Nat.ne_of_gt (notInput input) first
    · exact life_of_rollback started stopped
  · simp [placesOf_cons, placesOf_starts started, placesOf_stops stopped, refuses.1,
      List.pairwise_lt_range']

/-- The input does not start. -/
theorem balanced_of_cleared {count : Nat} {c d : Call σ} {starts stops : List (Call σ)}
    (refuses : c.Refuses) (input : c.place = 0) (clears : d.Stops) (same : d.place = 0)
    (started : AtEach Call.Starts (List.range' 1 count).reverse starts)
    (stopped : AtEach Call.Stops (List.range' 1 count) stops) :
    placesOf Deed.isStart (starts ++ c :: d :: stops) =
        (List.range' c.place (count + 1 - c.place)).reverse ∧
      Balanced true (count + 1) (starts ++ c :: d :: stops) := by
  have asked : d.deed = .stop := clears
  have order : placesOf Deed.isStart (starts ++ c :: d :: stops) =
      (List.range' 0 (count + 1)).reverse := by
    simp [placesOf_cons, placesOf_starts started, placesOf_stops stopped, refuses.1, asked, input,
      List.range'_succ]
  refine ⟨by rw [input]; exact order, fun place => ?_, ⟨0, Nat.zero_le _, order⟩, fun _ => ?_⟩
  · rw [callsAt_append, callsAt_cons, callsAt_cons, input, same]
    split
    · next here =>
      subst here
      rw [started.callsAt_of_not_mem (by simp), stopped.callsAt_of_not_mem (by simp)]
      exact .cleared refuses ⟨rfl, rfl⟩ clears
    · exact life_of_rollback started stopped
  · have ascending : (List.range' 0 (count + 1)).Pairwise (· < ·) := by simp [List.pairwise_lt_range']
    simpa [placesOf_cons, placesOf_starts started, placesOf_stops stopped, refuses.1, asked, same,
      List.range'_succ] using ascending

/-! ### The input -/

namespace Running

omit [Operator σ] in
/-- The stages of a pipeline, with the input in front. -/
def row (r : Running σ) : List (Stage σ) := r.input.toList ++ r.stages

@[simp] theorem input_close (r : Running σ) : r.close.input = r.input := by
  rw [close]
  split <;> rfl

@[simp] theorem input_digest (waiting : List Entry) (r : Running σ) :
    (r.digest waiting).input = r.input := by
  unfold digest
  dsimp only
  split <;> simp

omit [Operator σ] in
@[simp] theorem input_send (e : Entry) (r : Running σ) : (r.send e).2.input = r.input := by
  rw [send]
  split <;> rfl

theorem input_next? {limit : Nat} {r r' : Running σ} (h : r.next? limit = some r') :
    r'.input = r.input := by
  obtain ⟨-, ⟨e, rest, -, rfl⟩ | ⟨-, round, -, rfl⟩ | ⟨-, -, t, -, -, rfl⟩⟩ := next?_eq_some h
  · exact input_digest _ r
  · rfl
  · rfl

@[simp] theorem input_run (limit : Nat) (r : Running σ) : (r.run limit).input = r.input := by
  fun_induction Running.run limit r with
  | case1 r h => rfl
  | case2 r r' h ih => rw [ih, input_next? h]

@[simp] theorem input_host (deadline : Nat) (visits : List Visit) (r : Running σ) :
    (r.host deadline visits).input = r.input := by
  induction visits generalizing r with
  | nil => exact input_run deadline r
  | cons v rest ih =>
    simp only [host]
    split
    · rw [ih, receive]
      cases v.entry <;> simp
    · rw [input_run, input_run]

theorem input_drain (r : Running σ) : r.drain.input = r.input := by
  rw [drain]
  cases r.channel <;> simp

theorem input_halt (timeout : Nat) (senderHeld : Bool) (visits : List Visit) (r : Running σ) :
    (r.halt timeout senderHeld visits).2.input = r.stopInput.2.input := by
  simp only [halt, input_drain, input_host]
  rfl

theorem Reaches.input_eq {r₀ r : Running σ} {asked : List Failure} (h : r₀.Reaches asked r) :
    r.input = r₀.input := by
  induction h with
  | start => rfl
  | send e before ih => rw [input_send, ih]
  | take queue before ih => exact (input_digest _ _).trans ih
  | turn order had before ih => exact ih
  | wake time before ih => exact ih
  | wait time before ih => exact ih
  | ask first before ih => exact ih

/-! ### Starting -/

omit [Operator σ] in
theorem toList_append_split (pipeline : List (Stage σ)) :
    (split pipeline).1.toList ++ (split pipeline).2 = pipeline := by
  cases pipeline with
  | nil => rfl
  | cons s rest =>
    rw [split]
    split <;> rfl

def hasInput (pipeline : List (Stage σ)) : Bool := (split pipeline).1.isSome

/-- The calls with which a pipeline came about. All operators were started, from the last to the first, and
none of them has failed but maybe the input. -/
structure Begun (pipeline : List (Stage σ)) (starts : List (Call σ)) (r : Running σ) : Prop where
  fresh : r.IsFresh
  input : r.input.isSome = true → hasInput pipeline = true
  makes : Makes (Chain.operators pipeline) starts r.output.journal (Chain.operators r.row)
  begins : AtEach (Call.Begins r.input.toList.length) (List.range' 0 pipeline.length).reverse starts

theorem makes_input {s : Stage σ} {stages : List (Stage σ)} (behind : (Chain.startAll stages).failure = none) :
    ∃ starts, AtEach Call.Starts (List.range' 1 stages.length).reverse starts ∧
      Makes (Chain.operators (s :: stages)) (starts ++ [⟨0, s.operator, .start⟩])
        ((Chain.startAll stages).journal ++ (Operator.start s.operator).journal)
        (Chain.operators
          ({ s with operator := (Operator.start s.operator).operator } :: (Chain.startAll stages).stages)) := by
  obtain ⟨starts, made, started⟩ := Chain.makes_startAll [s.operator] stages behind
  have last := Makes.single [] s.operator (Chain.operators (Chain.startAll stages).stages) .start
  exact ⟨starts, started, made.trans last⟩

/-- The places from an input on, the last first. -/
theorem atEach_input {p : Call σ → Prop} {count : Nat} {starts : List (Call σ)} {c : Call σ}
    (started : AtEach Call.Starts (List.range' 1 count).reverse starts) (others : ∀ c, c.Starts → p c)
    (first : c.place = 0) (own : p c) :
    AtEach p (List.range' 0 (count + 1)).reverse (starts ++ [c]) := by
  refine ⟨by simp [started.1, first, List.range'_succ], fun d hd => ?_⟩
  obtain hd | hd := List.mem_append.1 hd
  · exact others d (started.2 d hd)
  · rw [List.mem_singleton.1 hd]
    exact own

theorem begun_of_start {now : Nat} {pipeline : List (Stage σ)} {r : Running σ}
    (h : start now pipeline = .ok r) : ∃ starts, r.Begun pipeline starts := by
  have fresh := isFresh_of_start h
  have parts := toList_append_split pipeline
  obtain ⟨behind, ⟨none, rfl⟩ | ⟨s, some, said, rfl⟩⟩ := start_eq_ok h
  · rw [none, Option.toList_none, List.nil_append] at parts
    rw [parts] at behind fresh ⊢
    obtain ⟨starts, made, places, each⟩ := Chain.makes_startAll [] pipeline behind
    exact ⟨starts, fresh, by simp, made, places, fun c hc => .inl (each c hc)⟩
  · rw [some, Option.toList_some, List.singleton_append] at parts
    obtain ⟨starts, started, made⟩ := makes_input (s := s) behind
    rw [parts] at made
    have many : (split pipeline).2.length + 1 = pipeline.length := congrArg List.length parts
    have begins := atEach_input (p := Call.Begins 1) started (fun c => .inl)
      (c := ⟨0, s.operator, .start⟩) rfl (.inl ⟨rfl, said⟩)
    rw [many] at begins
    exact ⟨_, fresh, by simp [hasInput, some], made, begins⟩

/-- If the input does not start, it is the only one. -/
theorem FailsToStart.begun {now : Nat} {pipeline : List (Stage σ)} {cause : Failure} {r : Running σ}
    (h : FailsToStart now pipeline cause r) :
    ∃ starts, r.Begun pipeline starts ∧ ∃ c ∈ starts, c.Refuses := by
  have fresh := h.isFresh
  cases h with
  | @input s stages cause isInput behind failed =>
    obtain ⟨starts, started, made⟩ := makes_input (s := s) behind
    have refuses : (Call.mk 0 s.operator .start).Refuses := ⟨rfl, cause, failed⟩
    have begins := atEach_input (p := Call.Begins 1) started (fun c => .inl) rfl
      (.inr ⟨refuses, Nat.zero_lt_one⟩)
    exact ⟨_, ⟨fresh, by simp [hasInput, split, isInput], made, begins⟩, _, by simp, refuses⟩

/-- The calls of a start that fails, with those that take it back. -/
theorem balanced_start_of_error {now : Nat} {pipeline : List (Stage σ)} {f : StartFailure}
    (h : start now pipeline = .error f) :
    ∃ calls last, Makes (Chain.operators pipeline) calls f.journal last ∧
      ∃ c ∈ calls, c.Refuses ∧
        placesOf Deed.isStart calls = (List.range' c.place (pipeline.length - c.place)).reverse ∧
        Balanced (hasInput pipeline) pipeline.length calls := by
  have parts := toList_append_split pipeline
  obtain ⟨cause, failed, rfl⟩ | ⟨s, cause, some, behind, said, rfl⟩ := start_eq_error h
  · obtain ⟨starts, c, stops, made, refuses, le, behind, sum, started, stopped⟩ :=
      Chain.makes_startAll_of_failure (Chain.operators (split pipeline).1.toList) (split pipeline).2 failed
    rw [← Chain.operators_append, parts] at made
    rw [Chain.length_operators] at le sum
    have whole : c.place + 1 + behind = pipeline.length := by
      rw [← parts, List.length_append]
      exact sum
    have notInput : hasInput pipeline = true → 0 < c.place := by
      intro input
      obtain ⟨s, some⟩ := Option.isSome_iff_exists.1 input
      rw [some] at le
      exact le
    exact ⟨_, _, made, c, by simp, refuses, balanced_of_refused refuses whole notInput started stopped⟩
  · rw [some, Option.toList_some, List.singleton_append] at parts
    obtain ⟨starts, started, made⟩ := makes_input (s := s) behind
    have cleared := Makes.single [] (Operator.start s.operator).operator
      (Chain.operators (Chain.startAll (split pipeline).2).stages) .stop
    obtain ⟨stops, stoppedMade, stopped⟩ := Chain.makes_stopAll
      [(Operator.stop (Operator.start s.operator).operator).operator]
      (Chain.startAll (split pipeline).2).stages
    have all := (made.trans cleared).trans stoppedMade
    have many : (Chain.startAll (split pipeline).2).stages.length = (split pipeline).2.length := by
      simpa using made.length_eq
    have whole : (split pipeline).2.length + 1 = pipeline.length := congrArg List.length parts
    rw [many] at stopped
    rw [parts] at all
    have refuses : (Call.mk 0 s.operator .start).Refuses := ⟨rfl, cause, said⟩
    have clears : (Call.mk 0 (Operator.start s.operator).operator .stop).Stops := rfl
    have balanced := balanced_of_cleared refuses rfl clears rfl started stopped
    rw [whole] at balanced
    have input : hasInput pipeline = true := by simp [hasInput, some]
    rw [input]
    exact ⟨_, _, all, _, by simp, refuses, by simpa using balanced⟩

/-! ### Stopping -/

theorem makes_stopInput (r : Running σ) :
    ∃ stops notes, r.stopInput.2.output.journal = r.output.journal ++ notes ∧
      Makes (Chain.operators r.row) stops notes (Chain.operators r.stopInput.2.row) ∧
      AtEach Call.Stops (List.range' 0 r.input.toList.length) stops := by
  cases h : r.input with
  | none =>
    have none : r.stopInput.2 = r := by simp [stopInput, h]
    rw [none]
    exact ⟨[], [], by simp, .nil _, by simp [AtEach]⟩
  | some s =>
    have stopped := Makes.single [] s.operator (Chain.operators r.stages) .stop
    have before : r.row = s :: r.stages := by simp [row, h]
    have behind : r.stopInput.2.row =
        { s with operator := (Operator.stop s.operator).operator } :: r.stages := by
      simp [row, stopInput, h]
    have wrote : r.stopInput.2.output.journal =
        r.output.journal ++ (Operator.stop s.operator).journal := by
      simp [stopInput, h]
    rw [before, behind]
    exact ⟨_, _, wrote, stopped, rfl, by simp [Call.Stops]⟩

omit [Operator σ] in
theorem operators_row (r : Running σ) :
    Chain.operators r.row = Chain.operators r.input.toList ++ Chain.operators r.stages :=
  Chain.operators_append _ _

@[simp] theorem length_input_stopInput (r : Running σ) :
    r.stopInput.2.input.toList.length = r.input.toList.length := by
  rw [stopInput]
  split
  · rfl
  · next h => rw [h]; rfl

theorem Begun.front {pipeline : List (Stage σ)} {starts : List (Call σ)} {r : Running σ}
    (begun : r.Begun pipeline starts) :
    ∀ place < r.input.toList.length, hasInput pipeline = true ∧ place = 0 := by
  intro place early
  cases h : r.input with
  | none => simp [h] at early
  | some s => exact ⟨begun.input (by simp [h]), by simpa [h] using early⟩

theorem Begun.balanced_halt {pipeline : List (Stage σ)} {starts : List (Call σ)} {r₀ r : Running σ}
    {asked : List Failure} (begun : r₀.Begun pipeline starts) (history : r₀.Reaches asked r) (timeout : Nat)
    (senderHeld : Bool) (visits : List Visit) :
    ∃ more, Makes (Chain.operators pipeline) (starts ++ more)
        (r.halt timeout senderHeld visits).2.output.journal
        (Chain.operators (r.halt timeout senderHeld visits).2.row) ∧
      placesOf Deed.isStart (starts ++ more) = (List.range' 0 pipeline.length).reverse ∧
      Balanced (hasInput pipeline) pipeline.length (starts ++ more) := by
  have front := begun.front
  obtain ⟨fresh, -, startMade, begins⟩ := begun
  obtain ⟨y, works, -, -, journal, failures⟩ := history.account fresh
  obtain ⟨z, yields, more⟩ := becomes_halt timeout senderHeld visits r
  have wrote : (r.halt timeout senderHeld visits).2.output.journal =
      r.stopInput.2.output.journal ++ z.journal := by
    simpa [yield] using congrArg Yield.journal yields
  have closed : (r.halt timeout senderHeld visits).2.channel = none := channel_drain _
  have kept := input_halt timeout senderHeld visits r
  generalize (r.halt timeout senderHeld visits).2 = last at more wrote closed kept ⊢
  obtain ⟨stopsIn, notes, noted, inputMade, inputStops⟩ := makes_stopInput r
  have count : r.input.toList.length + r₀.stages.length = pipeline.length := by
    simpa [row, history.input_eq] using startMade.length_eq
  -- every part of the row in terms of the same input and stages, so that the calls follow one another
  rw [wrote, noted, journal, operators_row, kept]
  rw [operators_row, ← history.input_eq] at startMade
  rw [← history.input_eq] at begins front
  rw [operators_row, operators_row, stages_stopInput] at inputMade
  rw [stages_stopInput, channel_stopInput, closed] at more
  rw [fresh.channel] at works
  cases hc : r.channel with
  | some waiting =>
    rw [hc] at works more
    obtain ⟨work, workMade, hands⟩ := works.makes_of_some (Chain.operators r.input.toList)
    obtain ⟨moreWork, stops, moreMade, handsMore, stopped, -⟩ :=
      more.makes_of_none (Chain.operators r.stopInput.2.input.toList)
    have all := ((startMade.trans workMade).trans inputMade).trans moreMade
    have many : r.stages.length = r₀.stages.length := by simpa using workMade.length_eq
    rw [← List.append_assoc _ moreWork] at all
    have within := all.place_lt
    simp only [Chain.length_operators, length_input_stopInput] at within hands handsMore stopped
    rw [many] at stopped
    have balanced := balanced_of_stopped count front begins hands inputStops handsMore stopped within
    exact ⟨work ++ stopsIn ++ moreWork ++ stops, by simpa using all, by simpa using balanced⟩
  | none =>
    rw [hc] at works more
    obtain ⟨work, stops, workMade, hands, stopped, broke⟩ :=
      works.makes_of_none (Chain.operators r.input.toList)
    -- the stages are at rest by now, and only a broken one has closed the channel
    obtain ⟨rested, -, -, rfl⟩ := more.rested
    have broken : ∃ c ∈ work, c.Breaks := by
      refine broke.resolve_left fun reports => ?_
      obtain ⟨f, hf, stage⟩ := history.ofStage_of_closed (by simp [fresh.channel]) hc
      rw [failures] at hf
      exact Chain.reports_none_iff.1 reports f hf stage
    have all := (startMade.trans workMade).trans inputMade
    rw [← List.append_assoc starts] at all
    have within := all.place_lt
    simp only [Chain.length_operators] at within hands stopped
    have balanced := balanced_of_broken count front begins hands broken stopped inputStops within
    exact ⟨work ++ stops ++ stopsIn, by simpa [rested] using all, by simpa using balanced⟩

/-- Starting and stopping are balanced, in a start that fails and takes itself back and in a whole run up
to the end of its stop, and also if tasks had their turns before a start is taken back. The calls are those
whose journal and whose operators a pipeline shows: operators that write down what is asked of them show
nothing else. -/
theorem starts_and_stops_balance (now : Nat) (pipeline : List (Stage σ)) :
    (∀ f, start now pipeline = .error f →
      ∃ calls last, Makes (Chain.operators pipeline) calls f.journal last ∧
        ∃ c ∈ calls, c.Refuses ∧
          placesOf Deed.isStart calls = (List.range' c.place (pipeline.length - c.place)).reverse ∧
          Balanced (hasInput pipeline) pipeline.length calls) ∧
    (∀ r₀, start now pipeline = .ok r₀ → ∀ asked r, r₀.Reaches asked r →
      ∀ timeout senderHeld visits, ∃ calls,
        Makes (Chain.operators pipeline) calls (r.stop timeout senderHeld visits).output.journal
          (Chain.operators (r.halt timeout senderHeld visits).2.row) ∧
        placesOf Deed.isStart calls = (List.range' 0 pipeline.length).reverse ∧
        Balanced (hasInput pipeline) pipeline.length calls) ∧
    ∀ cause r₀, FailsToStart now pipeline cause r₀ → ∀ asked r, r₀.Reaches asked r →
      ∀ senderHeld visits, ∃ calls,
        Makes (Chain.operators pipeline) calls (r.stop 0 senderHeld visits).output.journal
          (Chain.operators (r.halt 0 senderHeld visits).2.row) ∧
        (∃ c ∈ calls, c.Refuses) ∧
        placesOf Deed.isStart calls = (List.range' 0 pipeline.length).reverse ∧
        Balanced (hasInput pipeline) pipeline.length calls := by
  refine ⟨fun f failed => balanced_start_of_error failed,
    fun r₀ started asked r history timeout senderHeld visits => ?_,
    fun cause r₀ fails asked r history senderHeld visits => ?_⟩
  · obtain ⟨starts, begun⟩ := begun_of_start started
    obtain ⟨more, made, balanced⟩ := begun.balanced_halt history timeout senderHeld visits
    exact ⟨_, made, balanced⟩
  · obtain ⟨starts, begun, c, hc, refuses⟩ := fails.begun
    obtain ⟨more, made, balanced⟩ := begun.balanced_halt history 0 senderHeld visits
    exact ⟨_, made, ⟨c, List.mem_append_left _ hc, refuses⟩, balanced⟩

end Running

/-- An operator that writes down what is asked of it. If it is tired, it does not start. -/
structure Scribe where
  name : String
  tired : Bool := false

namespace Scribe

instance : Operator Scribe where
  start s :=
    { operator := s
      journal := [s.name ++ " starts"]
      outcome := if s.tired then .error ⟨"too tired", []⟩ else .ok () }
  stop s := { operator := s, journal := [s.name ++ " stops"] }
  process e s := { operator := s, journal := [s.name ++ " works"], outcome := .ok (some e) }

def office (tired : Bool) : List (Stage Scribe) :=
  [⟨"in", "scribe", .input, ⟨"in", tired⟩⟩, ⟨"mid", "scribe", .intermediate, ⟨"mid", false⟩⟩,
    ⟨"out", "scribe", .output, ⟨"out", false⟩⟩]

def atWork : Running Scribe :=
  { now := 0
    input := some ⟨"in", "scribe", .input, ⟨"in", false⟩⟩
    stages :=
      [⟨"mid", "scribe", .intermediate, ⟨"mid", false⟩⟩, ⟨"out", "scribe", .output, ⟨"out", false⟩⟩]
    output := { journal := ["out starts", "mid starts", "in starts"] } }

theorem journal_of_office : ((atWork.send {}).2.stop 5 false []).output.journal =
      ["out starts", "mid starts", "in starts", "in stops", "mid works", "out works", "mid stops",
        "out stops"] := by decide +kernel

def withoutInput : Running Scribe := { atWork with input := some ⟨"in", "scribe", .input, ⟨"in", true⟩⟩ }

theorem journal_of_withoutInput : ((withoutInput.send {}).2.stop 0 false []).output.journal =
      ["out starts", "mid starts", "in starts", "in stops", "mid works", "out works", "mid stops",
        "out stops"] := by decide +kernel

theorem office_starts_and_stops_balance :
    (∃ calls last, Makes (Chain.operators (office true)) calls
      ["out starts", "mid starts", "in starts", "in stops", "mid stops", "out stops"] last ∧
      (∃ c ∈ calls, c.Refuses) ∧ Balanced true 3 calls) ∧
    (Running.start 0 (office false) = .ok atWork ∧ ∃ calls last,
      Makes (Chain.operators (office false)) calls
        ["out starts", "mid starts", "in starts", "in stops", "mid works", "out works", "mid stops",
          "out stops"] last ∧
      placesOf Deed.isStart calls = [2, 1, 0] ∧ Balanced true 3 calls) ∧
    Running.FailsToStart 0 (office true) (Chain.notStarted "in" ⟨"too tired", []⟩) withoutInput ∧
      ∃ calls last, Makes (Chain.operators (office true)) calls
        ["out starts", "mid starts", "in starts", "in stops", "mid works", "out works", "mid stops",
          "out stops"] last ∧
      (∃ c ∈ calls, c.Refuses) ∧ Balanced true 3 calls := by
  have opened : Running.start 0 (office false) = .ok atWork := rfl
  have fails : Running.FailsToStart 0 (office true) (Chain.notStarted "in" ⟨"too tired", []⟩)
      withoutInput := .input rfl rfl rfl
  refine ⟨?_, ⟨opened, ?_⟩, fails, ?_⟩
  · obtain ⟨calls, last, made, c, hc, refuses, -, balanced⟩ :=
      (Running.starts_and_stops_balance 0 (office true)).1 _ rfl
    exact ⟨calls, last, made, ⟨c, hc, refuses⟩, balanced⟩
  · obtain ⟨calls, made, balanced⟩ := (Running.starts_and_stops_balance 0 (office false)).2.1 _ opened _ _
      (.send {} .start) 5 false []
    rw [journal_of_office] at made
    exact ⟨calls, _, made, balanced⟩
  · obtain ⟨calls, made, refuses, -, balanced⟩ :=
      (Running.starts_and_stops_balance 0 (office true)).2.2 _ _ fails _ _ (.send {} .start) false []
    rw [journal_of_withoutInput] at made
    exact ⟨calls, _, made, refuses, balanced⟩

end Scribe

end LogIntake
