import LogIntake.Pipeline.Chain

/-!
What a row of stages does to the entries it is handed, as rules: who sees an entry, what becomes of the
stages, what they write and what leaves the row. The functions that run agree with the rules.
-/
namespace LogIntake

def Stage.after {σ : Type} [Operator σ] (s : Stage σ) (e : Entry) : Stage σ :=
  { s with operator := (Operator.process e s.operator).operator }

namespace Chain

variable {σ : Type} [Operator σ]

/-- One entry goes from stage to stage. Behind a stage that keeps it or refuses it no stage sees it:
those are as they were. -/
inductive Passes : Entry → List (Stage σ) → List (Stage σ) → List String → Option Entry → Prop
  | leaves (e : Entry) : Passes e [] [] [] (some e)
  | onward {e e' : Entry} {s : Stage σ} {rest rest' : List (Stage σ)} {journal : List String}
      {out : Option Entry} (said : (Operator.process e s.operator).outcome = .ok (some e'))
      (next : Passes e' rest rest' journal out) :
      Passes e (s :: rest) (s.after e :: rest')
        ((Operator.process e s.operator).journal ++ journal) out
  | kept {e : Entry} {s : Stage σ} (rest : List (Stage σ))
      (said : (Operator.process e s.operator).outcome = .ok none) :
      Passes e (s :: rest) (s.after e :: rest) (Operator.process e s.operator).journal none
  | refused {e : Entry} {s : Stage σ} (rest : List (Stage σ)) {cause : Failure}
      (said : (Operator.process e s.operator).outcome = .error (.invalidEntry cause)) :
      Passes e (s :: rest) (s.after e :: rest) (Operator.process e s.operator).journal none

/-- An entry comes to a stage, known by its id, that breaks for a cause. -/
inductive Breaks :
    Entry → List (Stage σ) → List (Stage σ) → List String → String → Failure → Prop
  | here {e : Entry} {s : Stage σ} (rest : List (Stage σ)) {cause : Failure}
      (said : (Operator.process e s.operator).outcome = .error (.fatal cause)) :
      Breaks e (s :: rest) (s.after e :: rest) (Operator.process e s.operator).journal s.id cause
  | onward {e e' : Entry} {s : Stage σ} {rest rest' : List (Stage σ)} {journal : List String}
      {id : String} {cause : Failure}
      (said : (Operator.process e s.operator).outcome = .ok (some e'))
      (next : Breaks e' rest rest' journal id cause) :
      Breaks e (s :: rest) (s.after e :: rest')
        ((Operator.process e s.operator).journal ++ journal) id cause

/-- Entries go through the stages one after another, and no stage breaks. -/
inductive Handles :
    List Entry → List (Stage σ) → List (Stage σ) → List String → List Entry → Prop
  | nil (stages : List (Stage σ)) : Handles [] stages stages [] []
  | cons {e : Entry} {rest : List Entry} {stages between last : List (Stage σ)}
      {journal more : List String} {out : Option Entry} {left : List Entry}
      (first : Passes e stages between journal out) (then_ : Handles rest between last more left) :
      Handles (e :: rest) stages last (journal ++ more) (out.toList ++ left)

/-- Entries go through the stages up to one that breaks a stage. What comes after it is not handled. -/
def BreaksDown (entries : List Entry) (stages last : List (Stage σ)) (journal : List String)
    (left : List Entry) (id : String) (cause : Failure) : Prop :=
  ∃ before entry behind between written more, entries = before ++ entry :: behind ∧
    Handles before stages between written left ∧ Breaks entry between last more id cause ∧
    journal = written ++ more

/-! ### One entry -/

theorem pass_eq_of_passes {e : Entry} {stages last : List (Stage σ)} {journal : List String}
    {out : Option Entry} (h : Passes e stages last journal out) :
    pass e stages = ⟨last, journal, .ok out⟩ := by
  induction h with
  | leaves e => rfl
  | onward said next ih => simp [pass, said, ih, Stage.after]
  | kept rest said => simp [pass, said, Stage.after]
  | refused rest said => simp [pass, said, Stage.after]

theorem pass_eq_of_breaks {e : Entry} {stages last : List (Stage σ)} {journal : List String}
    {id : String} {cause : Failure} (h : Breaks e stages last journal id cause) :
    pass e stages = ⟨last, journal, .error (broken id cause)⟩ := by
  induction h with
  | here rest said => simp [pass, said, Stage.after]
  | onward said next ih => simp [pass, said, ih, Stage.after]

theorem passes_or_breaks (e : Entry) (stages : List (Stage σ)) :
    (∃ last journal out, Passes e stages last journal out) ∨
      ∃ last journal id cause, Breaks e stages last journal id cause := by
  induction stages generalizing e with
  | nil => exact .inl ⟨[], [], some e, .leaves e⟩
  | cons s rest ih =>
    cases said : (Operator.process e s.operator).outcome with
    | ok out =>
      cases out with
      | none => exact .inl ⟨_, _, _, .kept rest said⟩
      | some e' =>
        rcases ih e' with ⟨last, journal, out, h⟩ | ⟨last, journal, id, cause, h⟩
        · exact .inl ⟨_, _, _, .onward said h⟩
        · exact .inr ⟨_, _, _, _, .onward said h⟩
    | error why =>
      cases why with
      | invalidEntry cause => exact .inl ⟨_, _, _, .refused rest said⟩
      | fatal cause => exact .inr ⟨_, _, _, _, .here rest said⟩

/-! ### Many entries -/

theorem passAll_eq_of_handles {entries left : List Entry} {stages last : List (Stage σ)}
    {journal : List String} (h : Handles entries stages last journal left) :
    passAll entries stages = ⟨last, journal, left, none⟩ := by
  induction h with
  | nil stages => rfl
  | cons first then_ ih => simp [passAll, pass_eq_of_passes first, ih]

theorem passAll_append (front back : List Entry) (stages : List (Stage σ)) :
    passAll (front ++ back) stages =
      let p := passAll front stages
      match p.failure with
      | some _ => p
      | none =>
        let q := passAll back p.stages
        ⟨q.stages, p.journal ++ q.journal, p.left ++ q.left, q.failure⟩ := by
  induction front generalizing stages with
  | nil => simp [passAll]
  | cons e rest ih =>
    simp only [List.cons_append, passAll]
    cases (pass e stages).outcome with
    | error cause => rfl
    | ok out =>
      dsimp only
      rw [ih]
      dsimp only
      cases hf : (passAll rest (pass e stages).stages).failure with
      | some f => simp [hf]
      | none => simp [List.append_assoc]

/-- What the stages make of the entries in front, they leave behind for the others. -/
theorem passAll_append_of_eq {front back left more : List Entry}
    {stages between last : List (Stage σ)} {journal written : List String} {f : Option Failure}
    (h : passAll front stages = ⟨between, journal, left, none⟩)
    (k : passAll back between = ⟨last, written, more, f⟩) :
    passAll (front ++ back) stages = ⟨last, journal ++ written, left ++ more, f⟩ := by
  rw [passAll_append, h]
  simp [k]

theorem passAll_eq_of_breaksDown {entries left : List Entry} {stages last : List (Stage σ)}
    {journal : List String} {id : String} {cause : Failure}
    (h : BreaksDown entries stages last journal left id cause) :
    passAll entries stages = ⟨last, journal, left, some (broken id cause)⟩ := by
  obtain ⟨before, entry, behind, between, written, more, rfl, hh, hb, rfl⟩ := h
  have hb' : passAll (entry :: behind) between = ⟨last, more, [], some (broken id cause)⟩ := by
    simp [passAll, pass_eq_of_breaks hb]
  simpa using passAll_append_of_eq (passAll_eq_of_handles hh) hb'

theorem handles_or_breaksDown (entries : List Entry) (stages : List (Stage σ)) :
    (∃ last journal left, Handles entries stages last journal left) ∨
      ∃ last journal left id cause, BreaksDown entries stages last journal left id cause := by
  induction entries generalizing stages with
  | nil => exact .inl ⟨stages, [], [], .nil stages⟩
  | cons e rest ih =>
    rcases passes_or_breaks e stages with ⟨between, journal, out, hp⟩ | ⟨last, journal, id, cause, hb⟩
    · rcases ih between with ⟨last, more, left, hh⟩ | ⟨last, more, left, id, cause, hb⟩
      · exact .inl ⟨_, _, _, .cons hp hh⟩
      · obtain ⟨before, entry, behind, mid, written, tail, rfl, hh, hb, rfl⟩ := hb
        exact .inr ⟨last, journal ++ (written ++ tail), out.toList ++ left, id, cause,
          e :: before, entry, behind, mid, journal ++ written, tail, rfl, .cons hp hh, hb,
          (List.append_assoc journal written tail).symm⟩
    · exact .inr ⟨last, journal, [], id, cause, [], e, rest, stages, [], journal, rfl, .nil stages,
        hb, rfl⟩

theorem cases_of_passAll_eq {entries left : List Entry} {stages last : List (Stage σ)}
    {journal : List String} {f : Option Failure}
    (h : passAll entries stages = ⟨last, journal, left, f⟩) :
    (f = none ∧ Handles entries stages last journal left) ∨
      ∃ id cause, f = some (broken id cause) ∧
        BreaksDown entries stages last journal left id cause := by
  rcases handles_or_breaksDown entries stages with ⟨_, _, _, hh⟩ | ⟨_, _, _, id, cause, hb⟩
  · have he := passAll_eq_of_handles hh
    rw [h] at he
    cases he
    exact .inl ⟨rfl, hh⟩
  · have he := passAll_eq_of_breaksDown hb
    rw [h] at he
    cases he
    exact .inr ⟨id, cause, rfl, hb⟩

end Chain

end LogIntake
