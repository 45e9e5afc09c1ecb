import LogIntake.Proofs.Expansion.Building
import LogIntake.Proofs.Operator.Parsing
import LogIntake.Proofs.Receiver.Surfacing

/-!
Rows of built-in operators. None of them ever breaks or remembers anything, so a row of them is a partial
function on entries: what leaves it is what the function makes of each entry by itself. A pipeline of
them accepts entries until it is stopped, and nothing in it fails.
-/
namespace LogIntake

/-! ### One operator -/

theorem Add.timestamp_apply (a : Add) (e : Entry) : (a.apply e).timestamp = e.timestamp := by
  simp only [Add.apply, Entry.foldl_addAttribute, Entry.foldl_addResource]

namespace Builtin

def onward? (b : Builtin) (e : Entry) : Option Entry := (apply e b).toOption.join

theorem apply_ne_fatal (b : Builtin) (e : Entry) (cause : Failure) :
    apply e b ≠ .error (.fatal cause) := by
  intro breaks
  cases b with
  | add settings => cases breaks
  | dropOutput => cases breaks
  | jsonParser p =>
    rw [apply, JsonParser.apply] at breaks
    split at breaks
    · cases breaks
    · split at breaks <;> cases breaks

theorem timestamp_of_apply {b : Builtin} {e e' : Entry} (goesOn : apply e b = .ok (some e')) :
    e'.timestamp = e.timestamp := by
  cases b with
  | add settings =>
    cases goesOn
    exact Add.timestamp_apply settings e
  | dropOutput => cases goesOn
  | jsonParser p =>
    rw [apply, JsonParser.apply] at goesOn
    split at goesOn
    · next v parsed =>
      cases goesOn
      exact (JsonParser.stores (JsonParser.parse_eq_ok_iff.1 parsed)).timestamp
    · split at goesOn
      · cases goesOn
        rfl
      · cases goesOn

theorem onward?_eq_some_iff {b : Builtin} {e e' : Entry} :
    b.onward? e = some e' ↔ apply e b = .ok (some e') := by
  rw [onward?]
  cases apply e b <;> simp [Except.toOption]

/-! ### A row of operators -/

/-- What a row of operators makes of an entry. -/
def outcome? (stages : List (Stage Builtin)) (e : Entry) : Option Entry :=
  stages.foldlM (fun e s => s.operator.onward? e) e

theorem pass_eq (stages : List (Stage Builtin)) (e : Entry) :
    Chain.pass e stages = ⟨stages, [], .ok (outcome? stages e)⟩ := by
  induction stages generalizing e with
  | nil => rfl
  | cons s rest ih =>
    cases made : apply e s.operator with
    | ok out =>
      cases out with
      | none => simp [Chain.pass, Operator.process, made, outcome?, onward?, Except.toOption]
      | some e' =>
        have next := ih e'
        simp [Chain.pass, Operator.process, made, next, outcome?, onward?, Except.toOption]
    | error why =>
      cases why with
      | fatal cause => exact absurd made (apply_ne_fatal s.operator e cause)
      | invalidEntry cause =>
        simp [Chain.pass, Operator.process, made, outcome?, onward?, Except.toOption]

theorem passAll_eq (stages : List (Stage Builtin)) (entries : List Entry) :
    Chain.passAll entries stages = ⟨stages, [], entries.filterMap (outcome? stages), none⟩ := by
  induction entries with
  | nil => rfl
  | cons e rest ih =>
    cases made : outcome? stages e <;> simp [Chain.passAll, pass_eq, ih, made]

theorem timestamp_of_outcome? {stages : List (Stage Builtin)} {e e' : Entry}
    (leaves : outcome? stages e = some e') : e'.timestamp = e.timestamp := by
  induction stages generalizing e with
  | nil =>
    cases leaves
    rfl
  | cons s rest ih =>
    obtain ⟨between, first, later⟩ := Option.bind_eq_some_iff.1 leaves
    rw [ih later, timestamp_of_apply (onward?_eq_some_iff.1 first)]

theorem stages_stopAll (stages : List (Stage Builtin)) : (Chain.stopAll stages).stages = stages := by
  induction stages with
  | nil => rfl
  | cons s rest ih =>
    rw [Chain.stopAll, ih]
    rfl

theorem startAll_eq (stages : List (Stage Builtin)) : Chain.startAll stages = { stages } := by
  induction stages with
  | nil => rfl
  | cons s rest ih =>
    rw [Chain.startAll, ih]
    rfl

/-! ### A pipeline of operators -/

theorem not_input_of_mem_types {type : OperatorType Builtin} (h : type ∈ types id) :
    type.capability ≠ .input := by
  simp only [types, List.mem_cons, List.not_mem_nil, or_false] at h
  obtain rfl | rfl | rfl := h <;> decide

theorem not_input_of_built {templates : TemplateSet} {tables : List Toml.Table}
    {pipeline : List (Stage Builtin)}
    (built : buildPipeline (Registry.builtin id) templates tables = .ok pipeline) :
    ∀ s ∈ pipeline, s.capability ≠ .input := by
  intro s hs
  obtain ⟨chain, expands, -, made⟩ := Build.buildPipeline_eq_ok_iff.1 built
  obtain ⟨r, hr, made⟩ := Build.Made.of_mem made hs
  rw [made.capability]
  exact not_input_of_mem_types (Registry.mem_of_get?_ofTypes (expands.registered r hr))

theorem start_eq (now : Nat) {pipeline : List (Stage Builtin)}
    (noInput : ∀ s ∈ pipeline, s.capability ≠ .input) :
    Running.start now pipeline = .ok { now, stages := pipeline } := by
  have split_eq : Running.split pipeline = (none, pipeline) := by
    cases pipeline with
    | nil => rfl
    | cons s rest => rw [Running.split, if_neg (noInput s List.mem_cons_self)]
  rw [Running.start, split_eq]
  simp only [startAll_eq]

/-- Nothing in a pipeline has failed, and there is no task that could. -/
structure Quiet (r : Running Builtin) : Prop where
  jobs : r.jobs = []
  failures : r.failures = []

namespace Quiet

variable {r : Running Builtin}

theorem send (h : Quiet r) (e : Entry) : Quiet (r.send e).2 := by
  rw [Running.send]
  split
  · exact ⟨h.jobs, h.failures⟩
  · exact h

theorem take (h : Quiet r) (front back : List Entry) : Quiet (r.take front back) where
  jobs := by
    show (r.digest front).jobs = []
    rw [Running.jobs_digest, h.jobs]
  failures := by
    rw [Running.failures_take, passAll_eq, h.failures]
    rfl

theorem wakeJobs (h : Quiet r) (time : Nat) : Quiet (r.wakeJobs time) :=
  ⟨congrArg (List.map _) h.jobs, h.failures⟩

theorem not_round? (h : Quiet r) {around : Surroundings} {jobs : List Job} {round : Job.Round}
    (order : jobs.Perm r.jobs) : Job.round? around jobs ≠ some round := by
  rw [h.jobs, List.perm_nil] at order
  subst order
  nofun

theorem reaches {r₀ : Running Builtin} {asked : List Failure} (h : Quiet r₀)
    (history : r₀.Reaches asked r) : asked = [] ∧ Quiet r := by
  -- without jobs there are no turns, and without failures nobody is told of one
  induction history with
  | start => exact ⟨rfl, h⟩
  | send e before ih => exact ih.imp_right (·.send e)
  | take queue before ih => exact ih.imp_right (·.take _ _)
  | turn order had before ih => exact absurd had (ih.2.not_round? order)
  | wake time before ih => exact ih.imp_right (·.wakeJobs time)
  | wait time before ih => exact ih.imp_right fun h => ⟨h.jobs, h.failures⟩
  | ask first before ih => cases first.symm.trans ih.2.failures

theorem suffers {r₀ : Running Builtin} {stopping : Bool} {happened : List Failure} (h : Quiet r₀)
    (history : r₀.Suffers stopping happened r) : Quiet r := by
  induction history with
  | start => exact h
  | send e before ih => exact ih.send e
  | take queue before ih => exact ih.take _ _
  | turn order had before ih => exact absurd had (ih.not_round? order)
  | wake time before ih => exact ih.wakeJobs time
  | wait time before ih => exact ⟨ih.jobs, ih.failures⟩
  | @stopInput happened r stops before ih =>
    refine ⟨?_, by rw [Running.failures_stopInput, ih.failures]⟩
    rw [Running.stopInput]
    split <;> exact ih.jobs
  | shutDown stops before ih => exact ⟨congrArg (List.map _) ih.jobs, ih.failures⟩
  | giveUp stops before ih => exact ⟨rfl, ih.failures⟩
  | close stops before ih =>
    exact ⟨by rw [Running.jobs_close, ih.jobs], by rw [Running.failures_close, ih.failures]⟩

end Quiet

theorem not_breaksDown {entries left : List Entry} {stages last : List (Stage Builtin)}
    {journal : List String} {id : String} {cause : Failure} :
    ¬ Chain.BreaksDown entries stages last journal left id cause := by
  intro breaks
  cases (passAll_eq stages entries).symm.trans (Chain.passAll_eq_of_breaksDown breaks)

theorem eq_of_handles {entries left : List Entry} {stages last : List (Stage Builtin)}
    {journal : List String} (handles : Chain.Handles entries stages last journal left) :
    last = stages ∧ left = (Chain.passAll entries stages).left := by
  have handled := Chain.passAll_eq_of_handles handles
  refine ⟨?_, by rw [handled]⟩
  cases (passAll_eq stages entries).symm.trans handled
  rfl

/-- A pipeline of built-in operators at work: it accepts entries, nothing has failed, and what has left it
are the outcomes of the entries that were handled. -/
theorem atWork_of_reaches {now : Nat} {pipeline : List (Stage Builtin)} {r : Running Builtin}
    {asked : List Failure} (history : Running.Reaches { now, stages := pipeline } asked r) :
    r.isOpen = true ∧ asked = [] ∧ r.failures = [] ∧ r.stages = pipeline ∧
      ∃ handled waiting, r.channel = some waiting ∧ r.accepted = handled ++ waiting ∧
        r.left = (Chain.passAll handled pipeline).left := by
  have fresh : Running.IsFresh { now, stages := pipeline } := ⟨rfl, rfl, rfl, rfl⟩
  obtain ⟨rfl, quiet⟩ := Quiet.reaches ⟨rfl, rfl⟩ history
  obtain ⟨handled, waiting, journal, channel, accepted, handles, -⟩ | ⟨_, _, _, _, -, breaks, -⟩ :=
    history.atWork_or_brokenDown fresh
  · have isOpen : r.isOpen = true := by
      rw [Running.isOpen, channel]
      rfl
    obtain ⟨stages, left⟩ := eq_of_handles handles
    exact ⟨isOpen, rfl, quiet.failures, stages, handled, waiting, channel, accepted, left⟩
  · exact absurd breaks not_breaksDown

theorem finished_of_halt {now : Nat} {pipeline : List (Stage Builtin)} {r : Running Builtin}
    {asked : List Failure} (history : Running.Reaches { now, stages := pipeline } asked r)
    (timeout : Nat) (senderHeld : Bool) (visits : List Visit) :
    (r.halt timeout senderHeld visits).1 = .ok () ∧
      (r.halt timeout senderHeld visits).2.failures = [] ∧
      (r.halt timeout senderHeld visits).2.stages = pipeline ∧
      (r.halt timeout senderHeld visits).2.left =
        (Chain.passAll (r.halt timeout senderHeld visits).2.accepted pipeline).left := by
  have fresh : Running.IsFresh { now, stages := pipeline } := ⟨rfl, rfl, rfl, rfl⟩
  obtain ⟨more, stopped⟩ := Running.Suffers.halt r timeout senderHeld visits
  have quiet := (Quiet.reaches ⟨rfl, rfl⟩ history).2.suffers stopped
  have outcome : (r.halt timeout senderHeld visits).1 = .ok () := by
    show r.stopInput.1 = .ok ()
    rw [Running.stopInput]
    split <;> rfl
  obtain ⟨notes, -, ⟨stages, journal, -, handles, last, -⟩ | ⟨_, _, _, _, -, breaks, -⟩⟩ :=
    Running.halted fresh history timeout senderHeld visits
  · obtain ⟨same, left⟩ := eq_of_handles handles
    exact ⟨outcome, quiet.failures, by rw [last, stages_stopAll, same], left⟩
  · exact absurd breaks not_breaksDown

/-- Built-in operators never break, whatever they are given. So a row of them handles all entries, each
by itself and with the same stages before and after; an entry brings at most one, of the same time, and
those that bring none make no difference to the others. A pipeline of them, however it was configured,
starts, accepts entries until it is stopped, and stops without a failure. -/
theorem rows_never_break :
    (∀ (b : Builtin) (e : Entry) (cause : Failure),
      (Operator.process e b).outcome ≠ .error (.fatal cause)) ∧
    (∀ stages : List (Stage Builtin),
      (∀ entries, (Chain.passAll entries stages).failure = none ∧
        (Chain.passAll entries stages).stages = stages) ∧
      (∀ xs ys, (Chain.passAll (xs ++ ys) stages).left =
        (Chain.passAll xs stages).left ++ (Chain.passAll ys stages).left) ∧
      (∀ e, ∃ out : Option Entry, (Chain.passAll [e] stages).left = out.toList ∧
        ∀ e' ∈ out, e'.timestamp = e.timestamp) ∧
      ∀ xs e ys, (Chain.passAll [e] stages).left = [] →
        Chain.passAll (xs ++ e :: ys) stages = Chain.passAll (xs ++ ys) stages) ∧
    ∀ (templates : TemplateSet) (tables : List Toml.Table) (pipeline : List (Stage Builtin)),
      buildPipeline (Registry.builtin id) templates tables = .ok pipeline → ∀ now, ∃ r₀,
        Running.start now pipeline = .ok r₀ ∧ ∀ asked r, r₀.Reaches asked r →
          (r.isOpen = true ∧ asked = [] ∧ r.failures = [] ∧ r.stages = pipeline ∧
            ∃ handled waiting, r.channel = some waiting ∧ r.accepted = handled ++ waiting ∧
              r.left = (Chain.passAll handled pipeline).left) ∧
          ∀ timeout senderHeld visits,
            let last := (r.halt timeout senderHeld visits).2
            (r.halt timeout senderHeld visits).1 = .ok () ∧ last.failures = [] ∧
              last.stages = pipeline ∧ last.left = (Chain.passAll last.accepted pipeline).left := by
  refine ⟨fun b e cause => apply_ne_fatal b e cause, fun stages => ⟨?_, ?_, ?_, ?_⟩, ?_⟩
  · intro entries
    rw [passAll_eq]
    exact ⟨rfl, rfl⟩
  · intro xs ys
    simp only [passAll_eq, List.filterMap_append]
  · intro e
    refine ⟨outcome? stages e, ?_, fun e' leaves => timestamp_of_outcome? leaves⟩
    rw [passAll_eq]
    cases made : outcome? stages e <;> simp [made]
  · intro xs e ys nothing
    rw [passAll_eq] at nothing
    have kept : outcome? stages e = none := by
      cases made : outcome? stages e with
      | none => rfl
      | some e' => simp [made] at nothing
    simp [passAll_eq, kept]
  · intro templates tables pipeline built now
    exact ⟨_, start_eq now (not_input_of_built built), fun asked r history =>
      ⟨atWork_of_reaches history, finished_of_halt history⟩⟩

/-- Takes apart what parses, drops the rest, and says where it came from. -/
def intake : List Toml.Table :=
  [[("type", .leaf (.string "json_parser")), ("parse_to", .leaf (.string "attributes")),
     ("on_error", .leaf (.string "drop"))],
   [("type", .leaf (.string "add")), ("resource", .table [("host", .leaf (.string "web"))])]]

def intakeStages : List (Stage Builtin) :=
  [⟨"json_parser", "json_parser", .intermediate,
     .jsonParser { parseTo := .attributes, onError := .drop }⟩,
   ⟨"add", "add", .intermediate, .add { resource := .ofList [("host", "web")] }⟩]

def crate : Entry := { body := .string "\x7b\"a\":[1]\x7d" }

/-- The entry without a text does not come out, and the pipeline goes on and stops as with the other one
alone. -/
theorem intake_never_breaks :
    buildPipeline (Registry.builtin id) (.ofList []) intake = .ok intakeStages ∧
    (Chain.passAll [crate, {}] intakeStages).left = [{ crate with
      attributes := .ofList [("a", "[1]")], resource := .ofList [("host", "web")] }] ∧
    ∃ r₀, Running.start 0 intakeStages = .ok r₀ ∧
      let r := ((r₀.send crate).2.send {}).2
      r.isOpen = true ∧ (r.halt 1000 false []).1 = .ok () ∧ (r.halt 1000 false []).2.failures = [] := by
  have built : buildPipeline (Registry.builtin id) (.ofList []) intake = .ok intakeStages := by rfl
  obtain ⟨-, rows, pipelines⟩ := rows_never_break
  obtain ⟨-, -, -, skips⟩ := rows intakeStages
  obtain ⟨r₀, starts, runs⟩ := pipelines _ _ _ built 0
  obtain ⟨⟨isOpen, -⟩, stops⟩ := runs _ _ (.send {} (.send crate .start))
  obtain ⟨stopped, quiet, -⟩ := stops 1000 false []
  have same : Chain.passAll [crate, {}] intakeStages = Chain.passAll [crate] intakeStages :=
    skips [crate] {} [] (by rfl)
  refine ⟨built, ?_, r₀, starts, isOpen, stopped, quiet⟩
  rw [same]
  cbv

end Builtin

end LogIntake
