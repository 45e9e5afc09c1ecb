import LogIntake.Proofs.Expansion.Nesting

/-!
Which templates a build depends on. A walk looks a name up among the templates only where it comes to a
table with a type of this name that is not registered. Sets of templates that agree on the names that a
walk looks up are walked through in the same steps, so all other templates are of no account.
-/
namespace LogIntake.Build

variable {σ : Type} {registry : Registry σ} {templates others : TemplateSet}

namespace Walk

/-- The next table says a type that is not registered: its name is looked up among the templates. -/
def LooksUp (registry : Registry σ) (name : String) (w : Walk σ) : Prop :=
  ∃ row outer table rest localId, w.rows = row :: outer ∧ row.tables = table :: rest ∧
    Says table name localId ∧ registry.get? name = none

/-- The templates count for no more in a step than the name that it looks up. -/
theorem step_congr {w : Walk σ}
    (agree : ∀ name, w.LooksUp registry name → templates.get? name = others.get? name) :
    w.step registry templates = w.step registry others := by
  obtain ⟨stack, rows, resolved⟩ := w
  cases rows with
  | nil => rfl
  | cons row outer =>
    cases next : row.tables with
    | nil => rw [step_of_nil stack row outer resolved next, step_of_nil stack row outer resolved next]
    | cons table rest =>
      cases said : head row.index row.place table with
      | error e => simp only [step, next, said]
      | ok h =>
        obtain ⟨named, called, -⟩ := head_eq_ok_iff.1 said
        have heading : Says table h.typeName h.localId := ⟨named, called⟩
        rw [step_of_head heading next, step_of_head heading next]
        cases registered : registry.get? h.typeName with
        | some type => rfl
        | none =>
          have same := agree h.typeName ⟨row, outer, table, rest, _, rfl, next, heading, registered⟩
          simp only [same]

theorem Runs.succ_iff {a b : Walk σ} {n : Nat} :
    Runs registry templates a (n + 1) b ↔
      ∃ between, a.step registry templates = .goesOn between ∧ Runs registry templates between n b := by
  constructor
  · rintro ⟨⟩
    next between first rest => exact ⟨between, first, rest⟩
  · rintro ⟨between, first, rest⟩
    exact .succ first rest

/-- Templates that agree on all names that are looked up along the walks from one on are walked through
in the same steps. -/
theorem runs_congr {a b : Walk σ} {n : Nat}
    (agree : ∀ m w name, Runs registry templates a m w → w.LooksUp registry name →
      templates.get? name = others.get? name) :
    Runs registry templates a n b ↔ Runs registry others a n b := by
  induction n generalizing a with
  | zero =>
    constructor
    · rintro ⟨⟩
      exact .refl _
    · rintro ⟨⟩
      exact .refl _
  | succ n ih =>
    have here : a.step registry templates = a.step registry others :=
      step_congr fun name looks => agree 0 a name (.refl a) looks
    rw [Runs.succ_iff, Runs.succ_iff, ← here]
    refine exists_congr fun between => and_congr_right fun first => ih ?_
    exact fun m w name run looks => agree (m + 1) w name (.succ first run) looks

end Walk

/-- The expansion of the tables looks the name up among the templates. -/
def Consults (registry : Registry σ) (templates : TemplateSet) (tables : List Toml.Table)
    (name : String) : Prop :=
  ∃ n w, Walk.Runs registry templates (Walk.begin tables) n w ∧ w.LooksUp registry name

theorem Consults.unregistered {tables : List Toml.Table} {name : String}
    (h : Consults registry templates tables name) : registry.get? name = none := by
  obtain ⟨n, w, -, row, outer, table, rest, localId, -, -, -, unregistered⟩ := h
  exact unregistered

section Agreement

variable {tables : List Toml.Table}
  (agree : ∀ name, Consults registry templates tables name →
    templates.get? name = others.get? name)

include agree

theorem runs_iff_of_agree {n : Nat} {w : Walk σ} :
    Walk.Runs registry templates (Walk.begin tables) n w ↔
      Walk.Runs registry others (Walk.begin tables) n w :=
  Walk.runs_congr fun m w name run looks => agree name ⟨m, w, run, looks⟩

theorem consults_iff_of_agree {name : String} :
    Consults registry templates tables name ↔ Consults registry others tables name := by
  simp only [Consults, runs_iff_of_agree agree]

theorem expand_congr : expand registry templates tables = expand registry others tables := by
  obtain ⟨n, w, run, atEnd⟩ := Walk.runs_to_expand registry templates tables
  rw [Walk.step_congr fun name looks => agree name ⟨n, w, run, looks⟩] at atEnd
  exact (Walk.expand_eq_of_ends ((runs_iff_of_agree agree).1 run) atEnd).symm

theorem buildPipeline_congr :
    buildPipeline registry templates tables = buildPipeline registry others tables := by
  rw [buildPipeline, buildPipeline, expand_congr agree]

end Agreement

theorem agree_of_unregistered {tables : List Toml.Table}
    (same : ∀ name, registry.get? name = none → templates.get? name = others.get? name) :
    ∀ name, Consults registry templates tables name → templates.get? name = others.get? name :=
  fun name consults => same name consults.unregistered

end LogIntake.Build

namespace LogIntake

open Build

/-- What a build gives, a pipeline or a fault, is decided by the templates that the expansion looks up:
with any others that agree on their names it gives the same, and the same names are looked up. So
templates under registered names are of no account, wherever their names are used; adding one in
particular changes no build. -/
theorem unused_templates_do_not_matter {σ : Type} (registry : Registry σ) (templates : TemplateSet)
    (tables : List Toml.Table) :
    (∀ others : TemplateSet,
      (∀ name, Consults registry templates tables name → templates.get? name = others.get? name) →
        buildPipeline registry templates tables = buildPipeline registry others tables ∧
        ∀ name, Consults registry templates tables name ↔ Consults registry others tables name) ∧
    (∀ others : TemplateSet,
      (∀ name, registry.get? name = none → templates.get? name = others.get? name) →
        buildPipeline registry templates tables = buildPipeline registry others tables) ∧
    ∀ t : Template, registry.contains t.name = true →
      buildPipeline registry (templates.add t) tables = buildPipeline registry templates tables := by
  have registered : ∀ others : TemplateSet,
      (∀ name, registry.get? name = none → templates.get? name = others.get? name) →
        buildPipeline registry templates tables = buildPipeline registry others tables :=
    fun others same => buildPipeline_congr (agree_of_unregistered same)
  refine ⟨fun others agree => ⟨buildPipeline_congr agree, fun name => consults_iff_of_agree agree⟩,
    registered, fun t taken => (registered _ fun name free => ?_).symm⟩
  have other : name ≠ t.name := by
    rintro rfl
    simp [Registry.contains, free] at taken
  exact (TextMap.get?_insert_of_ne other t templates).symm

theorem consults_echo {name : String}
    (h : Consults (.ofTypes [plainType]) (.ofList [("echo", echoTemplate)]) [echoTable "a" "plain"]
      name) : name = "echo" := by
  obtain ⟨n, w, run, row, outer, table, rest, localId, rows, next, heading, unregistered⟩ := h
  have free : name ≠ "plain" := by
    rintro rfl
    cases unregistered
  cases run with
  | refl =>
    cases rows
    cases next
    exact (Toml.Scalar.string.inj (Toml.Tree.leaf.inj (Option.some.inj heading.named))).symm
  | succ first run =>
    cases first
    cases run with
    | refl =>
      cases rows
      cases next
      cases heading.named
      exact absurd rfl free
    | succ first run =>
      cases first
      cases run with
      | refl =>
        cases rows
        cases next
      | succ first run =>
        cases first
        cases run with
        | refl =>
          cases rows
          cases next
        | succ first run =>
          cases first
          cases run with
          | refl => cases rows
          | succ first run => cases first

/-- Templates beside the one that is named, one of them under the name of the registered type. -/
def crowdedTemplates : TemplateSet :=
  .ofList [("echo", echoTemplate), ("plain", echoTemplate), ("spare", echoTemplate)]

theorem spare_templates_do_not_matter :
    buildPipeline (.ofTypes [plainType]) (.ofList [("echo", echoTemplate)])
      [echoTable "a" "plain"] =
    buildPipeline (.ofTypes [plainType]) crowdedTemplates [echoTable "a" "plain"] := by
  obtain ⟨unused, -, -⟩ := unused_templates_do_not_matter (.ofTypes [plainType])
    (.ofList [("echo", echoTemplate)]) [echoTable "a" "plain"]
  refine (unused crowdedTemplates fun name consults => ?_).1
  rw [consults_echo consults]
  rfl

end LogIntake
