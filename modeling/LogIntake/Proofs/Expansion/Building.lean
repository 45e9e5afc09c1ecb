import LogIntake.Proofs.Expansion.Outcome
import Mathlib.Data.List.Forall2

/-!
Building a chain, from the tables to the operators or to the one fault that is reported. What the tables
expand to is checked as a whole before any operator is made, so the faults have an order: those of the
expansion, an id that comes twice, an operator in the wrong place, and last of all one that refuses its
settings.
-/
namespace LogIntake

/-! ### The first of its kind -/

/-- An element is the first of a row of which something holds, given those before and those behind it. -/
def FirstAt {α : Type} (p : List α → α → List α → Prop) (xs : List α) (x : α) : Prop :=
  ∃ front back, xs = front ++ x :: back ∧ p front x back ∧
    ∀ before y between, front = before ++ y :: between → ¬ p before y (between ++ x :: back)

namespace FirstAt

variable {α : Type} {p : List α → α → List α → Prop}

@[simp] theorem nil_iff {x : α} : FirstAt p [] x ↔ False := by
  simp [FirstAt]

theorem cons_iff {y : α} {ys : List α} {x : α} :
    FirstAt p (y :: ys) x ↔
      (p [] y ys ∧ x = y) ∨ (¬ p [] y ys ∧ FirstAt (fun front => p (y :: front)) ys x) := by
  constructor
  · rintro ⟨front, back, split, holds, earlier⟩
    cases front with
    | nil =>
      obtain ⟨rfl, rfl⟩ := List.cons.inj split
      exact .inl ⟨holds, rfl⟩
    | cons z front =>
      obtain ⟨rfl, rfl⟩ := List.cons.inj split
      refine .inr ⟨earlier [] y front rfl, front, back, rfl, holds, ?_⟩
      rintro before z between rfl
      exact earlier (y :: before) z between rfl
  · rintro (⟨holds, rfl⟩ | ⟨fails, front, back, rfl, holds, earlier⟩)
    · exact ⟨[], ys, rfl, holds, by simp⟩
    · refine ⟨y :: front, back, rfl, holds, ?_⟩
      intro before z between split
      cases before with
      | nil =>
        obtain ⟨rfl, rfl⟩ := List.cons.inj split
        exact fails
      | cons w before =>
        obtain ⟨rfl, rfl⟩ := List.cons.inj split
        exact earlier before z between rfl

theorem exists_iff {xs : List α} :
    (∃ x, FirstAt p xs x) ↔ ∃ front x back, xs = front ++ x :: back ∧ p front x back := by
  constructor
  · rintro ⟨x, front, back, split, holds, -⟩
    exact ⟨front, x, back, split, holds⟩
  · rintro ⟨front, x, back, rfl, holds⟩
    induction front generalizing p with
    | nil => exact ⟨x, cons_iff.2 (.inl ⟨holds, rfl⟩)⟩
    | cons y front ih =>
      by_cases here : p [] y (front ++ x :: back)
      · exact ⟨y, cons_iff.2 (.inl ⟨here, rfl⟩)⟩
      · have later : ∃ z, FirstAt (fun front => p (y :: front)) (front ++ x :: back) z := ih holds
        obtain ⟨z, later⟩ := later
        exact ⟨z, cons_iff.2 (.inr ⟨here, later⟩)⟩

end FirstAt

namespace Build

variable {σ : Type}

/-! ### Ids -/

theorem duplicate?_eq_some_iff {seen ids : List String} {id : String} :
    duplicate? seen ids = some id ↔
      FirstAt (fun front id _ => id ∈ seen ∨ id ∈ front) ids id := by
  induction ids generalizing seen with
  | nil => simp [duplicate?]
  | cons first rest ih =>
    rw [duplicate?, FirstAt.cons_iff]
    by_cases h : first ∈ seen
    · simp [h, eq_comm]
    · simp [h, ih, or_left_comm, or_assoc]

theorem duplicate?_eq_none_iff {seen ids : List String} :
    duplicate? seen ids = none ↔ ids.Nodup ∧ ∀ id ∈ ids, id ∉ seen := by
  induction ids generalizing seen with
  | nil => simp [duplicate?]
  | cons first rest ih =>
    by_cases h : first ∈ seen
    · simp [duplicate?, h]
    · simp [duplicate?, h, ih]
      grind

/-! ### Places -/

/-- An input that is not the first of its chain, or an output that is not the last. -/
def OutOfPlace (front : List (Resolved σ)) (r : Resolved σ) (back : List (Resolved σ)) : Prop :=
  (r.type.capability = .input ∧ front ≠ []) ∨ (r.type.capability = .output ∧ back ≠ [])

def InPlace (chain : List (Resolved σ)) : Prop :=
  ∀ front r back, chain = front ++ r :: back →
    (r.type.capability = .input → front = []) ∧ (r.type.capability = .output → back = [])

def misplacement (r : Resolved σ) : BuildError :=
  .misplaced r.id r.type.capability (if r.type.capability = .input then "first" else "last")

theorem inPlace_iff {chain : List (Resolved σ)} :
    InPlace chain ↔ ¬ ∃ r, FirstAt OutOfPlace chain r := by
  rw [FirstAt.exists_iff]
  constructor
  · rintro h ⟨front, r, back, split, ⟨input, notFirst⟩ | ⟨output, notLast⟩⟩
    · exact notFirst ((h front r back split).1 input)
    · exact notLast ((h front r back split).2 output)
  · intro h front r back split
    have inside : ¬ OutOfPlace front r back := fun out => h ⟨front, r, back, split, out⟩
    simpa [OutOfPlace] using inside

theorem wrongPlace?_eq_some_iff {front back : List (Resolved σ)} {r : Resolved σ}
    {expected : String} :
    wrongPlace? front.isEmpty back.isEmpty r.type.capability = some expected ↔
      OutOfPlace front r back ∧
        expected = if r.type.capability = .input then "first" else "last" := by
  cases hc : r.type.capability with
  | input => cases front <;> simp [wrongPlace?, OutOfPlace, hc, eq_comm]
  | intermediate => simp [wrongPlace?, OutOfPlace, hc]
  | output => cases back <;> simp [wrongPlace?, OutOfPlace, hc, eq_comm]

theorem misplaced?_eq_some_iff {before chain : List (Resolved σ)} {e : BuildError} :
    misplaced? before.isEmpty chain = some e ↔
      ∃ r, FirstAt (fun front => OutOfPlace (before ++ front)) chain r ∧ e = misplacement r := by
  induction chain generalizing before with
  | nil => simp [misplaced?]
  | cons r rest ih =>
    have later : misplaced? (before ++ [r]).isEmpty rest = some e ↔ _ := ih
    have behind : (before ++ [r]).isEmpty = false := by simp
    simp only [behind, List.append_assoc, List.singleton_append] at later
    simp only [misplaced?, FirstAt.cons_iff, List.append_nil]
    cases hw : wrongPlace? before.isEmpty rest.isEmpty r.type.capability with
    | some expected =>
      obtain ⟨out, rfl⟩ := wrongPlace?_eq_some_iff.1 hw
      simp [out, misplacement, eq_comm]
    | none =>
      have inside : ¬ OutOfPlace before r rest := by
        intro out
        cases hw.symm.trans (wrongPlace?_eq_some_iff.2 ⟨out, rfl⟩)
      simp [inside, later]

/-! ### The chain as a whole -/

structure Wellformed (chain : List (Resolved σ)) : Prop where
  filled : chain ≠ []
  distinct : (chain.map Resolved.id).Nodup
  placed : InPlace chain

/-- What is wrong with a chain as a whole: it is empty, an id comes for the second time, or, where the
ids differ, an operator is out of place. -/
inductive Malformed (chain : List (Resolved σ)) : BuildError → Prop
  | empty (unfilled : chain = []) : Malformed chain .emptyPipeline
  | duplicate {id : String}
      (again : FirstAt (fun front id _ => id ∈ front) (chain.map Resolved.id) id) :
      Malformed chain (.duplicateId id)
  | misplaced {r : Resolved σ} (distinct : (chain.map Resolved.id).Nodup)
      (out : FirstAt OutOfPlace chain r) : Malformed chain (misplacement r)

theorem duplicate?_nil_eq_some_iff {ids : List String} {id : String} :
    duplicate? [] ids = some id ↔ FirstAt (fun front id _ => id ∈ front) ids id := by
  have h : duplicate? [] ids = some id ↔ _ := duplicate?_eq_some_iff
  simpa using h

theorem duplicate?_nil_eq_none_iff {ids : List String} : duplicate? [] ids = none ↔ ids.Nodup := by
  have h : duplicate? [] ids = none ↔ _ := duplicate?_eq_none_iff
  simpa using h

theorem misplaced?_true_eq_some_iff {chain : List (Resolved σ)} {e : BuildError} :
    misplaced? true chain = some e ↔ ∃ r, FirstAt OutOfPlace chain r ∧ e = misplacement r := by
  have h : misplaced? ([] : List (Resolved σ)).isEmpty chain = some e ↔ _ := misplaced?_eq_some_iff
  simpa using h

theorem misplaced?_true_eq_none_iff {chain : List (Resolved σ)} :
    misplaced? true chain = none ↔ InPlace chain := by
  rw [inPlace_iff, Option.eq_none_iff_forall_ne_some]
  constructor
  · rintro h ⟨r, out⟩
    exact h _ (misplaced?_true_eq_some_iff.2 ⟨r, out, rfl⟩)
  · intro h e he
    obtain ⟨r, out, -⟩ := misplaced?_true_eq_some_iff.1 he
    exact h ⟨r, out⟩

theorem chainFault?_eq_some_iff {chain : List (Resolved σ)} {e : BuildError} :
    chainFault? chain = some e ↔ Malformed chain e := by
  constructor
  · intro h
    rw [chainFault?] at h
    split at h
    · next unfilled =>
      cases h
      exact .empty (List.isEmpty_iff.1 unfilled)
    · split at h
      · next id again =>
        cases h
        exact .duplicate (duplicate?_nil_eq_some_iff.1 again)
      · next distinct =>
        obtain ⟨r, out, rfl⟩ := misplaced?_true_eq_some_iff.1 h
        exact .misplaced (duplicate?_nil_eq_none_iff.1 distinct) out
  · intro h
    cases h with
    | empty unfilled => simp [chainFault?, unfilled]
    | duplicate again =>
      have filled : chain ≠ [] := by
        rintro rfl
        exact FirstAt.nil_iff.1 again
      simp [chainFault?, filled, duplicate?_nil_eq_some_iff.2 again]
    | misplaced distinct out =>
      have filled : chain ≠ [] := by
        rintro rfl
        exact FirstAt.nil_iff.1 out
      simp only [chainFault?, List.isEmpty_iff, filled, if_false,
        duplicate?_nil_eq_none_iff.2 distinct]
      exact misplaced?_true_eq_some_iff.2 ⟨_, out, rfl⟩

theorem chainFault?_eq_none_iff {chain : List (Resolved σ)} :
    chainFault? chain = none ↔ Wellformed chain := by
  constructor
  · intro h
    rw [chainFault?] at h
    split at h
    · cases h
    · next filled =>
      split at h
      · cases h
      · next distinct =>
        exact ⟨by simpa using filled, duplicate?_nil_eq_none_iff.1 distinct,
          misplaced?_true_eq_none_iff.1 h⟩
  · rintro ⟨filled, distinct, placed⟩
    simp only [chainFault?, List.isEmpty_iff, filled, if_false, duplicate?_nil_eq_none_iff.2 distinct]
    exact misplaced?_true_eq_none_iff.2 placed

/-! ### Making the operators -/

/-- A stage is what the type of a resolved table makes of its settings. -/
structure Made (r : Resolved σ) (stage : Stage σ) : Prop where
  id : stage.id = r.id
  typeName : stage.typeName = r.type.name
  capability : stage.capability = r.type.capability
  built : r.type.build r.id r.settings = .ok stage.operator

def Refused (_ : List (Resolved σ)) (r : Resolved σ) (_ : List (Resolved σ)) : Prop :=
  ∃ cause, r.type.build r.id r.settings = .error cause

theorem make_eq_ok_iff {r : Resolved σ} {stage : Stage σ} :
    make r = .ok stage ↔ Made r stage := by
  constructor
  · intro h
    rw [make] at h
    split at h
    · next operator built =>
      cases h
      exact ⟨rfl, rfl, rfl, built⟩
    · cases h
  · rintro ⟨id, typeName, capability, built⟩
    obtain ⟨_, _, _, operator⟩ := stage
    subst id typeName capability
    simp only [make, built]

theorem make_eq_error_iff {r : Resolved σ} {e : BuildError} :
    make r = .error e ↔
      ∃ cause, r.type.build r.id r.settings = .error cause ∧
        e = .invalidConfig r.id r.type.name cause := by
  constructor
  · intro h
    rw [make] at h
    split at h
    · cases h
    · next cause refused =>
      cases h
      exact ⟨cause, refused, rfl⟩
  · rintro ⟨cause, refused, rfl⟩
    simp only [make, refused]

theorem makeAll_eq_ok_iff {chain : List (Resolved σ)} {stages : List (Stage σ)} :
    makeAll chain = .ok stages ↔ List.Forall₂ Made chain stages := by
  induction chain generalizing stages with
  | nil => simp [makeAll, eq_comm, List.forall₂_nil_left_iff]
  | cons r rest ih =>
    simp only [makeAll, bind_eq_ok_iff, make_eq_ok_iff, ih, Except.ok.injEq]
    constructor
    · rintro ⟨stage, made, stages, rest, rfl⟩
      exact .cons made rest
    · intro h
      cases h with
      | cons made rest => exact ⟨_, made, _, rest, rfl⟩

theorem makeAll_eq_error_iff {chain : List (Resolved σ)} {e : BuildError} :
    makeAll chain = .error e ↔
      ∃ r cause, FirstAt Refused chain r ∧ r.type.build r.id r.settings = .error cause ∧
        e = .invalidConfig r.id r.type.name cause := by
  induction chain with
  | nil => simp [makeAll]
  | cons r rest ih =>
    have later : FirstAt (fun front => Refused (r :: front)) rest = FirstAt Refused rest := rfl
    simp only [makeAll, bind_eq_error_iff, make_eq_error_iff, make_eq_ok_iff, ih, FirstAt.cons_iff,
      later, reduceCtorEq, and_false, exists_false, or_false]
    cases built : r.type.build r.id r.settings with
    | error cause =>
      have refused : Refused [] r rest := ⟨cause, built⟩
      have unmade : ∀ stage, ¬ Made r stage := by
        intro stage made
        cases built.symm.trans made.built
      simp [refused, unmade, built]
    | ok operator =>
      have accepted : ¬ Refused [] r rest := by
        rintro ⟨cause, refused⟩
        cases built.symm.trans refused
      have made : Made r ⟨r.id, r.type.name, r.type.capability, operator⟩ := ⟨rfl, rfl, rfl, built⟩
      simp only [accepted, not_false_eq_true, true_and, false_and, false_or, reduceCtorEq,
        exists_false]
      constructor
      · rintro ⟨-, -, refused⟩
        exact refused
      · intro refused
        exact ⟨_, made, refused⟩

/-! ### What is expanded is registered -/

theorem Expands.registered {registry : Registry σ} {templates : TemplateSet}
    {path stack : List String} {tables : List Toml.Table} {chain : List (Resolved σ)}
    (h : Expands registry templates path stack tables chain) :
    ∀ r ∈ chain, registry.get? r.type.name = some r.type := by
  induction h with
  | nil path stack => simp
  | @operator path stack table rest typeName localId type back heading registered behind ih =>
    have own : type.name = typeName := registry.named typeName type registered
    intro r hr
    obtain rfl | hr := List.mem_cons.1 hr
    · rw [own]
      exact registered
    · exact ih r hr
  | template stands fresh room filled inside behind ihFront ihBack =>
    intro r hr
    obtain hr | hr := List.mem_append.1 hr
    · exact ihFront r hr
    · exact ihBack r hr

theorem Made.of_mem {chain : List (Resolved σ)} {stages : List (Stage σ)}
    (h : List.Forall₂ Made chain stages) {stage : Stage σ} (hs : stage ∈ stages) :
    ∃ r ∈ chain, Made r stage := by
  induction h with
  | nil => simp at hs
  | cons made rest ih =>
    obtain rfl | hs := List.mem_cons.1 hs
    · exact ⟨_, List.mem_cons_self, made⟩
    · obtain ⟨r, hr, made⟩ := ih hs
      exact ⟨r, List.mem_cons_of_mem _ hr, made⟩

theorem exists_made_iff {chain : List (Resolved σ)} :
    (∃ stages, List.Forall₂ Made chain stages) ↔
      ∀ r ∈ chain, ∃ operator, r.type.build r.id r.settings = .ok operator := by
  induction chain with
  | nil => simp
  | cons r rest ih =>
    rw [List.forall_mem_cons, ← ih]
    constructor
    · rintro ⟨stages, h⟩
      cases h with
      | cons made behind => exact ⟨⟨_, made.built⟩, _, behind⟩
    · rintro ⟨⟨operator, built⟩, stages, behind⟩
      have made : Made r ⟨r.id, r.type.name, r.type.capability, operator⟩ := ⟨rfl, rfl, rfl, built⟩
      exact ⟨_, .cons made behind⟩

theorem buildPipeline_eq_ok_iff {registry : Registry σ} {templates : TemplateSet}
    {tables : List Toml.Table} {stages : List (Stage σ)} :
    buildPipeline registry templates tables = .ok stages ↔
      ∃ chain, Expands registry templates [] [] tables chain ∧ Wellformed chain ∧
        List.Forall₂ Made chain stages := by
  simp only [buildPipeline, bind_eq_ok_iff, expand_eq_ok_iff]
  refine exists_congr fun chain => and_congr_right fun _ => ?_
  cases fault : chainFault? chain with
  | some e =>
    have malformed : ¬ Wellformed chain := by simp [← chainFault?_eq_none_iff, fault]
    simp [malformed]
  | none => simp [chainFault?_eq_none_iff.1 fault, makeAll_eq_ok_iff]

theorem buildPipeline_eq_error_iff {registry : Registry σ} {templates : TemplateSet}
    {tables : List Toml.Table} {e : BuildError} :
    buildPipeline registry templates tables = .error e ↔
      Fails registry templates [] [] 0 tables e ∨
      ∃ chain, Expands registry templates [] [] tables chain ∧
        (Malformed chain e ∨
          Wellformed chain ∧ ∃ r cause, FirstAt Refused chain r ∧
            r.type.build r.id r.settings = .error cause ∧
            e = .invalidConfig r.id r.type.name cause) := by
  simp only [buildPipeline, bind_eq_error_iff, expand_eq_ok_iff, expand_eq_error_iff]
  refine or_congr_right (exists_congr fun chain => and_congr_right fun _ => ?_)
  cases fault : chainFault? chain with
  | some e' =>
    have malformed : ¬ Wellformed chain := by simp [← chainFault?_eq_none_iff, fault]
    simp [malformed, ← chainFault?_eq_some_iff, fault]
  | none =>
    have sound : ¬ Malformed chain e := by simp [← chainFault?_eq_some_iff, fault]
    simp [sound, chainFault?_eq_none_iff.1 fault, makeAll_eq_error_iff]

end Build

/-- What a chain is built of. If the tables expand, and what they expand to has an operator, no id twice,
inputs and outputs in their places, and settings that every type accepts, then the operators that are
made of it are the chain, and otherwise there is none. The fault is then the first one of the expansion;
without one, the first of the chain as a whole; and without one of those, it is that of the first
operator that refuses its settings. -/
theorem buildPipeline_exact {σ : Type} (registry : Registry σ) (templates : TemplateSet)
    (tables : List Toml.Table) :
    ((∃ stages, buildPipeline registry templates tables = .ok stages) ↔
      ∃ chain, Build.Expands registry templates [] [] tables chain ∧ Build.Wellformed chain ∧
        ∀ r ∈ chain, ∃ operator, r.type.build r.id r.settings = .ok operator) ∧
    (∀ stages, buildPipeline registry templates tables = .ok stages ↔
      ∃ chain, Build.Expands registry templates [] [] tables chain ∧ Build.Wellformed chain ∧
        List.Forall₂ Build.Made chain stages) ∧
    (∀ stages, buildPipeline registry templates tables = .ok stages → ∀ stage ∈ stages,
      ∃ type, registry.get? stage.typeName = some type ∧ stage.capability = type.capability) ∧
    ∀ e, buildPipeline registry templates tables = .error e ↔
      Build.Fails registry templates [] [] 0 tables e ∨
      ∃ chain, Build.Expands registry templates [] [] tables chain ∧
        (Build.Malformed chain e ∨
          Build.Wellformed chain ∧ ∃ r cause, FirstAt Build.Refused chain r ∧
            r.type.build r.id r.settings = .error cause ∧
            e = .invalidConfig r.id r.type.name cause) := by
  refine ⟨?_, fun _ => Build.buildPipeline_eq_ok_iff, ?_, fun _ => Build.buildPipeline_eq_error_iff⟩
  · simp only [Build.buildPipeline_eq_ok_iff, ← Build.exists_made_iff]
    constructor
    · rintro ⟨stages, chain, expands, wellformed, made⟩
      exact ⟨chain, expands, wellformed, stages, made⟩
    · rintro ⟨chain, expands, wellformed, stages, made⟩
      exact ⟨stages, chain, expands, wellformed, made⟩
  · intro stages built stage hs
    obtain ⟨chain, expands, -, made⟩ := Build.buildPipeline_eq_ok_iff.1 built
    obtain ⟨r, hr, made⟩ := Build.Made.of_mem made hs
    refine ⟨r.type, ?_, made.capability⟩
    rw [made.typeName]
    exact expands.registered r hr

end LogIntake
