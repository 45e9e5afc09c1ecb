import LogIntake.Proofs.Pipeline.Life

/-!
The calls that a pipeline makes on its operators, each known by its place. What the functions make of the
operators, and what these write, comes of calls made one after another and of nothing else.
-/
namespace LogIntake

inductive Deed where
  | start
  | process (e : Entry)
  | stop

/-- A call on the operator at a place, which is in this state when it is called. -/
structure Call (σ : Type) where
  place : Nat
  operator : σ
  deed : Deed

namespace Call

variable {σ : Type} [Operator σ]

def after (c : Call σ) : σ :=
  match c.deed with
  | .start => (Operator.start c.operator).operator
  | .process e => (Operator.process e c.operator).operator
  | .stop => (Operator.stop c.operator).operator

def journal (c : Call σ) : List String :=
  match c.deed with
  | .start => (Operator.start c.operator).journal
  | .process e => (Operator.process e c.operator).journal
  | .stop => (Operator.stop c.operator).journal

def Starts (c : Call σ) : Prop :=
  c.deed = .start ∧ (Operator.start c.operator).outcome = .ok ()

def Refuses (c : Call σ) : Prop :=
  c.deed = .start ∧ ∃ cause, (Operator.start c.operator).outcome = .error cause

/-- The operator is started. Only one in front of a place may fail. -/
def Begins (low : Nat) (c : Call σ) : Prop := c.Starts ∨ c.Refuses ∧ c.place < low

omit [Operator σ] in
def Processes (c : Call σ) : Prop := ∃ e, c.deed = .process e

def Breaks (c : Call σ) : Prop :=
  ∃ e cause, c.deed = .process e ∧ (Operator.process e c.operator).outcome = .error (.fatal cause)

def Stops (c : Call σ) : Prop := c.deed = .stop

end Call

/-- Calls are made one after another on a row of operators: what these write, and what becomes of them. -/
inductive Makes {σ : Type} [Operator σ] :
    List σ → List (Call σ) → List String → List σ → Prop
  | nil (operators : List σ) : Makes operators [] [] operators
  | cons {operators last : List σ} {c : Call σ} {calls : List (Call σ)} {journal : List String}
      (own : operators[c.place]? = some c.operator)
      (later : Makes (operators.set c.place c.after) calls journal last) :
      Makes operators (c :: calls) (c.journal ++ journal) last

/-- A call of one kind at each of some places, one after another. -/
def AtEach {σ : Type} (p : Call σ → Prop) (places : List Nat) (calls : List (Call σ)) : Prop :=
  calls.map Call.place = places ∧ ∀ c ∈ calls, p c

namespace Makes

variable {σ : Type} [Operator σ] {a b c : List σ} {calls more : List (Call σ)}
  {journal written : List String}

theorem trans (h : Makes a calls journal b) (k : Makes b more written c) :
    Makes a (calls ++ more) (journal ++ written) c := by
  induction h with
  | nil operators => exact k
  | cons own later ih =>
    rw [List.append_assoc]
    exact .cons own (ih k)

theorem single (front : List σ) (s : σ) (back : List σ) (deed : Deed) :
    Makes (front ++ s :: back) [⟨front.length, s, deed⟩] (Call.mk front.length s deed).journal
      (front ++ (Call.mk front.length s deed).after :: back) := by
  have own : (front ++ s :: back)[front.length]? = some s := by simp
  have set : (front ++ s :: back).set front.length (Call.mk front.length s deed).after =
      front ++ (Call.mk front.length s deed).after :: back := by simp
  have made := @Makes.cons σ _ _ _ ⟨front.length, s, deed⟩ [] [] own (.nil _)
  rw [set, List.append_nil] at made
  exact made

/-- An operator in front of those that are called may be counted with them. -/
theorem behind {front back last : List σ} {s t : σ}
    (h : Makes (front ++ [s] ++ back) calls journal (front ++ [t] ++ last)) :
    Makes (front ++ s :: back) calls journal (front ++ t :: last) := by
  rwa [← List.append_cons, ← List.append_cons] at h

theorem length_eq (h : Makes a calls journal b) : b.length = a.length := by
  induction h with
  | nil operators => rfl
  | cons own later ih => simpa using ih

theorem place_lt (h : Makes a calls journal b) : ∀ c ∈ calls, c.place < a.length := by
  induction h with
  | nil operators => simp
  | cons own later ih =>
    intro c hc
    rcases List.mem_cons.1 hc with rfl | hc
    · exact (List.getElem?_eq_some_iff.1 own).1
    · simpa using ih c hc

end Makes

namespace Chain

variable {σ : Type} [Operator σ]

omit [Operator σ] in
def operators (stages : List (Stage σ)) : List σ := stages.map Stage.operator

omit [Operator σ] in
theorem operators_append (front back : List (Stage σ)) :
    operators (front ++ back) = operators front ++ operators back := List.map_append

omit [Operator σ] in
@[simp] theorem length_operators (stages : List (Stage σ)) :
    (operators stages).length = stages.length := List.length_map _

/-! ### The work -/

omit [Operator σ] in
/-- Calls with which entries are handed to operators from a place on. -/
def Hands (low : Nat) (calls : List (Call σ)) : Prop := ∀ c ∈ calls, c.Processes ∧ low ≤ c.place

theorem makes_process (front : List σ) (e : Entry) (s : Stage σ) (rest : List (Stage σ)) :
    Makes (front ++ operators (s :: rest)) [⟨front.length, s.operator, .process e⟩]
      (Operator.process e s.operator).journal (front ++ operators (s.after e :: rest)) :=
  Makes.single front s.operator (operators rest) (.process e)

theorem makes_onward {front : List σ} {e : Entry} {s : Stage σ} {rest last : List (Stage σ)}
    {work : List (Call σ)} {journal : List String}
    (later : Makes (front ++ [(s.after e).operator] ++ operators rest) work journal
      (front ++ [(s.after e).operator] ++ operators last)) :
    Makes (front ++ operators (s :: rest)) (⟨front.length, s.operator, .process e⟩ :: work)
      ((Operator.process e s.operator).journal ++ journal)
      (front ++ operators (s.after e :: last)) :=
  (makes_process front e s rest).trans later.behind

omit [Operator σ] in
theorem hands_onward {front : List σ} {e : Entry} {s t : σ} {work : List (Call σ)}
    (hands : Hands (front ++ [t]).length work) :
    Hands front.length (⟨front.length, s, .process e⟩ :: work) := by
  intro c hc
  rcases List.mem_cons.1 hc with rfl | hc
  · exact ⟨⟨e, rfl⟩, Nat.le_refl _⟩
  · obtain ⟨processes, le⟩ := hands c hc
    rw [List.length_append] at le
    exact ⟨processes, Nat.le_of_add_right_le le⟩

theorem Passes.makes {e : Entry} {stages last : List (Stage σ)} {journal : List String}
    {out : Option Entry} (h : Passes e stages last journal out) (front : List σ) :
    ∃ work, Makes (front ++ operators stages) work journal (front ++ operators last) ∧
      Hands front.length work := by
  induction h generalizing front with
  | leaves e => exact ⟨[], .nil _, by simp [Hands]⟩
  | @onward e e' s rest rest' journal out said next ih =>
    obtain ⟨work, made, hands⟩ := ih (front ++ [(s.after e).operator])
    exact ⟨_, makes_onward made, hands_onward hands⟩
  | @kept e s rest said | @refused e s rest cause said =>
    exact ⟨_, makes_process front e s rest, by simp [Hands, Call.Processes]⟩

theorem Breaks.makes {e : Entry} {stages last : List (Stage σ)} {journal : List String} {id : String}
    {cause : Failure} (h : Breaks e stages last journal id cause) (front : List σ) :
    ∃ work, Makes (front ++ operators stages) work journal (front ++ operators last) ∧
      Hands front.length work ∧ ∃ c ∈ work, c.Breaks := by
  induction h generalizing front with
  | @here e s rest cause said =>
    exact ⟨_, makes_process front e s rest, by simp [Hands, Call.Processes],
      _, List.mem_singleton_self _, e, cause, rfl, said⟩
  | @onward e e' s rest rest' journal id cause said next ih =>
    obtain ⟨work, made, hands, c, hc, breaks⟩ := ih (front ++ [(s.after e).operator])
    exact ⟨_, makes_onward made, hands_onward hands, c, List.mem_cons_of_mem _ hc, breaks⟩

omit [Operator σ] in
theorem Hands.append {low : Nat} {calls more : List (Call σ)} (h : Hands low calls)
    (k : Hands low more) : Hands low (calls ++ more) := by
  intro c hc
  exact (List.mem_append.1 hc).elim (h c) (k c)

theorem Handles.makes {entries left : List Entry} {stages last : List (Stage σ)}
    {journal : List String} (h : Handles entries stages last journal left) (front : List σ) :
    ∃ work, Makes (front ++ operators stages) work journal (front ++ operators last) ∧
      Hands front.length work := by
  induction h with
  | nil stages => exact ⟨[], .nil _, by simp [Hands]⟩
  | cons first later ih =>
    obtain ⟨work, made, hands⟩ := first.makes front
    obtain ⟨more, madeMore, handsMore⟩ := ih
    exact ⟨work ++ more, made.trans madeMore, hands.append handsMore⟩

theorem BreaksDown.makes {entries left : List Entry} {stages last : List (Stage σ)}
    {journal : List String} {id : String} {cause : Failure}
    (h : BreaksDown entries stages last journal left id cause) (front : List σ) :
    ∃ work, Makes (front ++ operators stages) work journal (front ++ operators last) ∧
      Hands front.length work ∧ ∃ c ∈ work, c.Breaks := by
  obtain ⟨before, entry, behind, between, written, more, -, handles, breaks, rfl⟩ := h
  obtain ⟨work, made, hands⟩ := handles.makes front
  obtain ⟨last, madeLast, handsLast, c, hc, broke⟩ := breaks.makes front
  exact ⟨work ++ last, made.trans madeLast, hands.append handsLast, c, List.mem_append_right _ hc, broke⟩

/-- Entries that go through the stages are handed to operators. If they do not all go through, one of
these breaks. -/
theorem makes_passAll {entries left : List Entry} {stages last : List (Stage σ)}
    {journal : List String} {failure : Option Failure}
    (h : passAll entries stages = ⟨last, journal, left, failure⟩) (front : List σ) :
    ∃ work, Makes (front ++ operators stages) work journal (front ++ operators last) ∧
      Hands front.length work ∧ (failure ≠ none → ∃ c ∈ work, c.Breaks) := by
  obtain ⟨rfl, handles⟩ | ⟨id, cause, rfl, breaks⟩ := cases_of_passAll_eq h
  · obtain ⟨work, made, hands⟩ := handles.makes front
    exact ⟨work, made, hands, fun h => absurd rfl h⟩
  · obtain ⟨work, made, hands, broke⟩ := breaks.makes front
    exact ⟨work, made, hands, fun _ => broke⟩

/-! ### Starting and stopping -/

theorem makes_stopAll (front : List σ) (stages : List (Stage σ)) :
    ∃ stops, Makes (front ++ operators stages) stops (stopAll stages).journal
        (front ++ operators (stopAll stages).stages) ∧
      AtEach Call.Stops (List.range' front.length stages.length) stops := by
  induction stages generalizing front with
  | nil => exact ⟨[], .nil _, rfl, by simp⟩
  | cons s rest ih =>
    have first := Makes.single front s.operator (operators rest) .stop
    obtain ⟨stops, made, places, each⟩ := ih (front ++ [(Operator.stop s.operator).operator])
    refine ⟨_, first.trans made.behind, ?_, ?_⟩
    · simp [places, List.range'_succ]
    · simpa [Call.Stops] using each

/-! A stretch of work, by its two ends. -/

theorem Works.makes_of_some {stages last : List (Stage σ)} {waiting back : List Entry} {y : Yield}
    (h : Works stages (some waiting) y last (some back)) (front : List σ) :
    ∃ work, Makes (front ++ operators stages) work y.journal (front ++ operators last) ∧
      Hands front.length work := by
  obtain ⟨handled, -, passed, -⟩ := h.wentOn
  obtain ⟨work, made, hands, -⟩ := makes_passAll passed front
  exact ⟨work, made, hands⟩

theorem Works.makes_of_none {stages last : List (Stage σ)} {waiting : List Entry} {y : Yield}
    (h : Works stages (some waiting) y last none) (front : List σ) :
    ∃ work stops, Makes (front ++ operators stages) (work ++ stops) y.journal
        (front ++ operators last) ∧
      Hands front.length work ∧
      AtEach Call.Stops (List.range' front.length stages.length) stops ∧
      (Reports none y.failures ∨ ∃ c ∈ work, c.Breaks) := by
  obtain ⟨between, journal, fatal, passed, rfl, wrote, reports⟩ := h.ended
  obtain ⟨work, made, hands, broke⟩ := makes_passAll passed front
  obtain ⟨stops, stopped, each⟩ := makes_stopAll front between
  have many : between.length = stages.length := by simpa using made.length_eq
  rw [many] at each
  rw [wrote]
  refine ⟨work, stops, made.trans stopped, hands, each, ?_⟩
  cases fatal with
  | none => exact .inl reports
  | some f => exact .inr (broke (by simp))

theorem startAll_of_failure (s : Stage σ) {rest : List (Stage σ)} {cause : Failure}
    (behind : (startAll rest).failure = some cause) :
    startAll (s :: rest) = { startAll rest with stages := s :: (startAll rest).stages } := by
  simp [startAll, behind]

theorem startAll_of_ok {s : Stage σ} {rest : List (Stage σ)} (behind : (startAll rest).failure = none)
    (said : (Operator.start s.operator).outcome = .ok ()) :
    startAll (s :: rest) =
      { stages := { s with operator := (Operator.start s.operator).operator } :: (startAll rest).stages
        jobs := (startAll rest).jobs ++ Job.spawnAll s.id (Operator.start s.operator).tasks
        journal := (startAll rest).journal ++ (Operator.start s.operator).journal } := by
  simp [startAll, behind, said]

theorem startAll_of_error {s : Stage σ} {rest : List (Stage σ)} {cause : Failure}
    (behind : (startAll rest).failure = none)
    (said : (Operator.start s.operator).outcome = .error cause) :
    startAll (s :: rest) =
      { stages := { s with operator := (Operator.start s.operator).operator } ::
          (stopAll (startAll rest).stages).stages
        journal := (startAll rest).journal ++ (Operator.start s.operator).journal ++
          (stopAll (startAll rest).stages).journal
        failure := some (notStarted s.id cause) } := by
  simp [startAll, behind, said]

theorem makes_startAll (front : List σ) (stages : List (Stage σ))
    (went : (startAll stages).failure = none) :
    ∃ starts, Makes (front ++ operators stages) starts (startAll stages).journal
        (front ++ operators (startAll stages).stages) ∧
      AtEach Call.Starts (List.range' front.length stages.length).reverse starts := by
  induction stages generalizing front with
  | nil => exact ⟨[], .nil _, rfl, by simp⟩
  | cons s rest ih =>
    cases behind : (startAll rest).failure with
    | some cause => simp [startAll_of_failure s behind, behind] at went
    | none =>
      cases said : (Operator.start s.operator).outcome with
      | error cause => simp [startAll_of_error behind said] at went
      | ok started =>
        obtain ⟨starts, made, places, each⟩ := ih (front ++ [s.operator]) behind
        have last := Makes.single front s.operator (operators (startAll rest).stages) .start
        have both := made.behind.trans last
        rw [startAll_of_ok behind said]
        refine ⟨_, both, ?_, ?_⟩
        · simp [places, List.range'_succ]
        · intro c hc
          rcases List.mem_append.1 hc with hc | hc
          · exact each c hc
          · rw [List.mem_singleton.1 hc]
            exact ⟨rfl, said⟩

/-- An operator that does not start is called for nothing else, and nor are those in front of it. Those
behind it were started, from the last to the first, and are stopped, from the first to the last. -/
theorem makes_startAll_of_failure (front : List σ) (stages : List (Stage σ)) {cause : Failure}
    (went : (startAll stages).failure = some cause) :
    ∃ starts c stops, Makes (front ++ operators stages) (starts ++ c :: stops)
        (startAll stages).journal (front ++ operators (startAll stages).stages) ∧
      c.Refuses ∧ front.length ≤ c.place ∧
      ∃ behind, c.place + 1 + behind = front.length + stages.length ∧
        AtEach Call.Starts (List.range' (c.place + 1) behind).reverse starts ∧
        AtEach Call.Stops (List.range' (c.place + 1) behind) stops := by
  induction stages generalizing front with
  | nil => simp [startAll] at went
  | cons s rest ih =>
    cases behind : (startAll rest).failure with
    | some cause' =>
      rw [startAll_of_failure s behind] at went ⊢
      obtain ⟨starts, c, stops, made, refuses, le, count, sum, each⟩ := ih (front ++ [s.operator]) went
      rw [List.length_append, List.length_singleton] at le sum
      refine ⟨starts, c, stops, made.behind, refuses, by omega, count, ?_, each⟩
      rw [List.length_cons]
      omega
    | none =>
      cases said : (Operator.start s.operator).outcome with
      | ok started => simp [startAll_of_ok behind said] at went
      | error cause' =>
        obtain ⟨starts, made, started⟩ := makes_startAll (front ++ [s.operator]) rest behind
        have last := Makes.single front s.operator (operators (startAll rest).stages) .start
        obtain ⟨stops, stopped, each⟩ :=
          makes_stopAll (front ++ [(Operator.start s.operator).operator]) (startAll rest).stages
        have all := made.behind.trans (last.trans stopped.behind)
        rw [← List.append_assoc (startAll rest).journal] at all
        have many : (startAll rest).stages.length = rest.length := by simpa using made.length_eq
        rw [startAll_of_error behind said]
        refine ⟨starts, ⟨front.length, s.operator, .start⟩, stops, all, ⟨rfl, cause', said⟩,
          Nat.le_refl _, rest.length, ?_, ?_, ?_⟩
        · simp only [List.length_cons]
          omega
        · simpa using started
        · simpa [many] using each

end Chain

end LogIntake
