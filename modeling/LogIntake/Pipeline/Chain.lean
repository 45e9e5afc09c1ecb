import LogIntake.Pipeline.Build

/-!
A row of stages at work. An entry goes from stage to stage until one of them consumes it or refuses
it, and what comes out of the last one has left the row. A fatal error ends the work for good.
-/
namespace LogIntake

/-- What a row of stages made of one entry. -/
structure Passage (σ : Type) where
  stages : List (Stage σ)
  journal : List String := []
  /-- The entry that left the last stage, if there is one. -/
  outcome : Except Failure (Option Entry)

structure Passages (σ : Type) where
  stages : List (Stage σ)
  journal : List String := []
  /-- The entries that left the last stage. -/
  left : List Entry := []
  /-- Why the work ended before the last entry. -/
  failure : Option Failure := none

structure Stopping (σ : Type) where
  stages : List (Stage σ)
  journal : List String := []

namespace Chain

variable {σ : Type} [Operator σ]

def broken (id : String) (cause : Failure) : Failure :=
  cause.context ("fatal error in operator '" ++ id ++ "'")

def pass (e : Entry) : List (Stage σ) → Passage σ
  | [] => { stages := [], outcome := .ok (some e) }
  | s :: rest =>
    let p := Operator.process e s.operator
    let s := { s with operator := p.operator }
    match p.outcome with
    | .ok (some e) =>
      let q := pass e rest
      { q with stages := s :: q.stages, journal := p.journal ++ q.journal }
    | .ok none => { stages := s :: rest, journal := p.journal, outcome := .ok none }
    | .error (.invalidEntry _) => { stages := s :: rest, journal := p.journal, outcome := .ok none }
    | .error (.fatal cause) =>
      { stages := s :: rest, journal := p.journal, outcome := .error (broken s.id cause) }

/-- Lets entries go through the stages one after another, up to a fatal error. -/
def passAll : List Entry → List (Stage σ) → Passages σ
  | [], stages => { stages }
  | e :: rest, stages =>
    let p := pass e stages
    match p.outcome with
    | .ok out =>
      let q := passAll rest p.stages
      { q with journal := p.journal ++ q.journal, left := out.toList ++ q.left }
    | .error cause => { stages := p.stages, journal := p.journal, failure := some cause }

/-- Stops all stages, from the first to the last. A stage that cannot be stopped does not keep the
others from it. -/
def stopAll : List (Stage σ) → Stopping σ
  | [] => { stages := [] }
  | s :: rest =>
    let p := Operator.stop s.operator
    let q := stopAll rest
    { stages := { s with operator := p.operator } :: q.stages, journal := p.journal ++ q.journal }

/-! ### A row in two parts -/

/-- What comes out of the front goes into the back. -/
theorem pass_append (e : Entry) (front back : List (Stage σ)) :
    pass e (front ++ back) =
      let p := pass e front
      match p.outcome with
      | .ok (some e) =>
        let q := pass e back
        { q with stages := p.stages ++ q.stages, journal := p.journal ++ q.journal }
      | _ => { p with stages := p.stages ++ back } := by
  induction front generalizing e with
  | nil => simp [pass]
  | cons s rest ih =>
    simp only [List.cons_append, pass]
    split <;> try rfl
    rw [ih]
    dsimp only
    split <;> simp [List.append_assoc]

end Chain

end LogIntake
