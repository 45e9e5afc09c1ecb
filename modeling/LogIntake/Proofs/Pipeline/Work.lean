import LogIntake.Pipeline.Lifecycle
import LogIntake.Proofs.Chain.Passing

/-!
The work of a pipeline in stretches. Whatever happens for a while, entries are accepted at the back of
the channel, the stages take entries from its front, and failures are reported. Two stretches, one
after the other, are one; so what a pipeline did in its whole life is said by a single stretch.
-/
namespace LogIntake

structure Yield where
  accepted : List Entry := []
  left : List Entry := []
  journal : List String := []
  failures : List Failure := []

namespace Yield

def append (y z : Yield) : Yield where
  accepted := y.accepted ++ z.accepted
  left := y.left ++ z.left
  journal := y.journal ++ z.journal
  failures := y.failures ++ z.failures

instance : Append Yield := ⟨append⟩

variable (x y z : Yield)

@[simp] theorem accepted_append : (y ++ z).accepted = y.accepted ++ z.accepted := rfl

@[simp] theorem left_append : (y ++ z).left = y.left ++ z.left := rfl

@[simp] theorem journal_append : (y ++ z).journal = y.journal ++ z.journal := rfl

@[simp] theorem failures_append : (y ++ z).failures = y.failures ++ z.failures := rfl

@[simp] theorem empty_append : ({} : Yield) ++ y = y := rfl

theorem mk_append_mk (a b : List Entry) (c : List String) (d : List Failure) (a' b' : List Entry)
    (c' : List String) (d' : List Failure) :
    (⟨a, b, c, d⟩ : Yield) ++ ⟨a', b', c', d'⟩ = ⟨a ++ a', b ++ b', c ++ c', d ++ d'⟩ := rfl

@[simp] theorem append_empty : y ++ {} = y := by
  cases y
  simp [mk_append_mk]

theorem append_assoc : x ++ y ++ z = x ++ (y ++ z) := by
  cases x
  cases y
  cases z
  simp [mk_append_mk]

end Yield

namespace Chain

def OfStage (f : Failure) : Prop := ∃ id cause, f = broken id cause

theorem not_ofStage_of_job (owner : String) (cause : Failure) : ¬ OfStage (Job.broken owner cause) := by
  rintro ⟨id, cause', h⟩
  have texts := congrArg (fun f => f.outermost.toList) h
  simp [broken, Job.broken] at texts

/-- There is one failure of a stage among all failures, or none if none is named. -/
def Reports (fatal : Option Failure) (failures : List Failure) : Prop :=
  ∃ before behind, failures = before ++ fatal.toList ++ behind ∧ ∀ f ∈ before ++ behind, ¬ OfStage f

theorem reports_none_iff {failures : List Failure} :
    Reports none failures ↔ ∀ f ∈ failures, ¬ OfStage f := by
  constructor
  · rintro ⟨before, behind, rfl, h⟩
    simpa using h
  · intro h
    exact ⟨failures, [], by simp, by simpa using h⟩

@[simp] theorem reports_none_nil : Reports none [] := by simp [reports_none_iff]

theorem reports_toList (fatal : Option Failure) : Reports fatal fatal.toList :=
  ⟨[], [], by simp, by simp⟩

theorem Reports.append {fatal : Option Failure} {front back : List Failure}
    (h : Reports fatal front) (k : Reports none back) : Reports fatal (front ++ back) := by
  obtain ⟨before, behind, rfl, hf⟩ := h
  rw [reports_none_iff] at k
  refine ⟨before, behind ++ back, by simp, fun f hm => ?_⟩
  rw [← List.append_assoc] at hm
  exact (List.mem_append.1 hm).elim (hf f) (k f)

theorem Reports.prepend {fatal : Option Failure} {front back : List Failure}
    (h : Reports none front) (k : Reports fatal back) : Reports fatal (front ++ back) := by
  obtain ⟨before, behind, rfl, hf⟩ := k
  rw [reports_none_iff] at h
  refine ⟨front ++ before, behind, by simp, fun f hm => ?_⟩
  rw [List.append_assoc] at hm
  exact (List.mem_append.1 hm).elim (h f) (hf f)

variable {σ : Type} [Operator σ]

/-- A stretch of work: the stages and the waiting entries before, what comes of it, and both after.
Nothing waits, and nothing is accepted, once the stages have been stopped. -/
inductive Works : List (Stage σ) → Option (List Entry) → Yield → List (Stage σ) →
    Option (List Entry) → Prop
  | goesOn {stages last : List (Stage σ)} {waiting accepted handled back left : List Entry}
      {journal : List String} {failures : List Failure}
      (queue : waiting ++ accepted = handled ++ back)
      (passed : passAll handled stages = ⟨last, journal, left, none⟩)
      (reports : Reports none failures) :
      Works stages (some waiting) ⟨accepted, left, journal, failures⟩ last (some back)
  | ends {stages last : List (Stage σ)} {waiting accepted left : List Entry}
      {journal : List String} {fatal : Option Failure} {failures : List Failure}
      (passed : passAll (waiting ++ accepted) stages = ⟨last, journal, left, fatal⟩)
      (reports : Reports fatal failures) :
      Works stages (some waiting) ⟨accepted, left, journal ++ (stopAll last).journal, failures⟩
        (stopAll last).stages none
  | rests (stages : List (Stage σ)) {failures : List Failure} (reports : Reports none failures) :
      Works stages none ⟨[], [], [], failures⟩ stages none

namespace Works

theorem refl (stages : List (Stage σ)) (channel : Option (List Entry)) :
    Works stages channel {} stages channel := by
  cases channel with
  | none => exact .rests stages reports_none_nil
  | some waiting =>
    have passed : passAll [] stages = ⟨stages, [], [], none⟩ := rfl
    exact .goesOn (by simp) passed reports_none_nil

theorem trans {stages between last : List (Stage σ)} {channel queue rest : Option (List Entry)}
    {y z : Yield} (h : Works stages channel y between queue) (k : Works between queue z last rest) :
    Works stages channel (y ++ z) last rest := by
  cases h with
  | goesOn queue passed reports =>
    cases k with
    | goesOn queue' passed' reports' =>
      -- what waits in between is the front of what the second stretch handles
      have both := passAll_append_of_eq passed passed'
      rw [Yield.mk_append_mk]
      refine .goesOn ?_ both (reports.append reports')
      rw [← List.append_assoc, queue, List.append_assoc, queue', ← List.append_assoc]
    | ends passed' reports' =>
      have both := passAll_append_of_eq passed passed'
      rw [← List.append_assoc, ← queue, List.append_assoc] at both
      rw [Yield.mk_append_mk, ← List.append_assoc]
      exact .ends both (reports.prepend reports')
  | ends passed reports =>
    cases k with
    | rests reports' =>
      rw [Yield.mk_append_mk]
      simpa using Works.ends passed (reports.append reports')
  | rests reports =>
    cases k with
    | rests reports' => exact .rests _ (reports.append reports')

/-! What is known of a stretch by its two ends. -/

theorem ended {stages last : List (Stage σ)} {waiting : List Entry} {y : Yield}
    (h : Works stages (some waiting) y last none) :
    ∃ between journal fatal,
      passAll (waiting ++ y.accepted) stages = ⟨between, journal, y.left, fatal⟩ ∧
      last = (stopAll between).stages ∧ y.journal = journal ++ (stopAll between).journal ∧
      Reports fatal y.failures := by
  cases h with
  | ends passed reports => exact ⟨_, _, _, passed, rfl, rfl, reports⟩

theorem wentOn {stages last : List (Stage σ)} {waiting back : List Entry} {y : Yield}
    (h : Works stages (some waiting) y last (some back)) :
    ∃ handled, waiting ++ y.accepted = handled ++ back ∧
      passAll handled stages = ⟨last, y.journal, y.left, none⟩ ∧ Reports none y.failures := by
  cases h with
  | goesOn queue passed reports => exact ⟨_, queue, passed, reports⟩

theorem rested {stages last : List (Stage σ)} {channel : Option (List Entry)} {y : Yield}
    (h : Works stages none y last channel) :
    last = stages ∧ channel = none ∧ ∃ failures, y = ⟨[], [], [], failures⟩ := by
  cases h with
  | rests reports => exact ⟨rfl, rfl, _, rfl⟩

end Works

end Chain

namespace Running

variable {σ : Type}

def left (r : Running σ) : List Entry := r.output.left.map Prod.snd

def yield (r : Running σ) : Yield where
  accepted := r.accepted
  left := r.left
  journal := r.output.journal
  failures := r.failures

variable [Operator σ]

/-- One state of a pipeline becomes another by some work, while some of what it shows is taken away
from it. -/
def Becomes (taken : Yield) (r r' : Running σ) : Prop :=
  ∃ y, taken ++ r'.yield = r.yield ++ y ∧ Chain.Works r.stages r.channel y r'.stages r'.channel

namespace Becomes

/-- The clock, the input and the jobs are nothing to the stages. -/
theorem of_eq {r r' : Running σ} (yields : r'.yield = r.yield) (stages : r'.stages = r.stages)
    (channel : r'.channel = r.channel) : Becomes {} r r' := by
  refine ⟨{}, by simp [yields], ?_⟩
  rw [stages, channel]
  exact .refl _ _

theorem refl (r : Running σ) : Becomes {} r r := .of_eq rfl rfl rfl

theorem trans {taken more : Yield} {a b c : Running σ} (h : Becomes taken a b)
    (k : Becomes more b c) : Becomes (taken ++ more) a c := by
  obtain ⟨y, hy, hw⟩ := h
  obtain ⟨z, hz, kw⟩ := k
  refine ⟨y ++ z, ?_, hw.trans kw⟩
  calc taken ++ more ++ c.yield = taken ++ (more ++ c.yield) := Yield.append_assoc _ _ _
    _ = taken ++ b.yield ++ z := by rw [hz, Yield.append_assoc]
    _ = a.yield ++ (y ++ z) := by rw [hy, Yield.append_assoc]

theorem andThen {taken : Yield} {a b c : Running σ} (h : Becomes taken a b) (k : Becomes {} b c) :
    Becomes taken a c := by
  simpa using h.trans k

end Becomes

end Running

end LogIntake
