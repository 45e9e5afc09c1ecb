import LogIntake.Operator.Basic
import LogIntake.TextMap
import LogIntake.Toml.Decode

/-!
The registry of operator types. A type is registered once: the first registration of a name stays.
-/
namespace LogIntake

/-- An operator type: its name, its place in a pipeline and how one is made from its settings. -/
structure OperatorType (σ : Type) where
  name : String
  capability : Capability
  build : String → Toml.Table → Except Failure σ

/-- The operator types by name: each stands under its own. -/
structure Registry (σ : Type) where
  types : TextMap (OperatorType σ)
  named : ∀ name t, types.get? name = some t → t.name = name

structure DuplicateType where
  name : String
deriving DecidableEq, Repr

def DuplicateType.message (e : DuplicateType) : String :=
  "operator type '" ++ e.name ++ "' is already registered"

namespace Registry

variable {σ : Type}

def empty : Registry σ := ⟨.empty, by simp [TextMap.get?, TextMap.empty, Members.get?]⟩

def get? (name : String) (r : Registry σ) : Option (OperatorType σ) := r.types.get? name

def contains (name : String) (r : Registry σ) : Bool := (r.get? name).isSome

def typeNames (r : Registry σ) : List String := r.types.keys

theorem named_insert (t : OperatorType σ) (r : Registry σ) (name : String) (other : OperatorType σ)
    (h : (r.types.insert t.name t).get? name = some other) : other.name = name := by
  by_cases hn : name = t.name
  · subst hn
    rw [TextMap.get?_insert_self] at h
    rw [Option.some.inj h]
  · rw [TextMap.get?_insert_of_ne hn] at h
    exact r.named name other h

def register (t : OperatorType σ) (r : Registry σ) : Except DuplicateType (Registry σ) :=
  if r.contains t.name then .error ⟨t.name⟩ else .ok ⟨r.types.insert t.name t, named_insert t r⟩

/-- Registers types up to the first one whose name is taken; those before it stay. -/
def registerAll : List (OperatorType σ) → Registry σ → Registry σ × Option DuplicateType
  | [], r => (r, none)
  | t :: rest, r =>
    match r.register t with
    | .ok r => registerAll rest r
    | .error e => (r, some e)

/-- The registry of the given types, the first of each name. -/
def ofTypes (types : List (OperatorType σ)) : Registry σ :=
  types.foldl (fun r t => (r.register t).toOption.getD r) empty

def first? (name : String) (row : List (OperatorType σ)) : Option (OperatorType σ) :=
  row.find? fun t => t.name = name

theorem first?_cons (name : String) (t : OperatorType σ) (row : List (OperatorType σ)) :
    first? name (t :: row) = if t.name = name then some t else first? name row := by
  by_cases own : t.name = name <;> simp [first?, own]

/-- A type whose name is free is found under it from then on, and nothing else is changed. -/
theorem register_of_free {t : OperatorType σ} {r : Registry σ} (free : r.get? t.name = none) :
    ∃ r', r.register t = .ok r' ∧
      ∀ name, r'.get? name = if t.name = name then some t else r.get? name := by
  refine ⟨⟨r.types.insert t.name t, named_insert t r⟩, by simp [register, contains, free],
    fun name => ?_⟩
  by_cases own : t.name = name
  · subst own
    rw [if_pos rfl]
    exact TextMap.get?_insert_self _ _ _
  · rw [if_neg own]
    exact TextMap.get?_insert_of_ne (Ne.symm own) t r.types

theorem register_of_taken {t s : OperatorType σ} {r : Registry σ} (taken : r.get? t.name = some s) :
    r.register t = .error ⟨t.name⟩ := by
  simp [register, contains, taken]

/-- Refused or not, a name stands for what it stood for before, or else for the new type. -/
theorem get?_attempt (t : OperatorType σ) (r : Registry σ) (name : String) :
    ((r.register t).toOption.getD r).get? name =
      (r.get? name).or (if t.name = name then some t else none) := by
  cases stands : r.get? t.name with
  | none =>
    obtain ⟨r', registered, found⟩ := register_of_free stands
    rw [registered]
    show r'.get? name = _
    rw [found]
    split
    · next own => rw [← own, stands, Option.none_or]
    · rw [Option.or_none]
  | some s =>
    rw [register_of_taken stands]
    show r.get? name = _
    split
    · next own => rw [← own, stands, Option.some_or]
    · rw [Option.or_none]

theorem get?_ofTypes (types : List (OperatorType σ)) (name : String) :
    (ofTypes types).get? name = first? name types := by
  have onward : ∀ (rest : List (OperatorType σ)) (r : Registry σ),
      (rest.foldl (fun r t => (r.register t).toOption.getD r) r).get? name =
        (r.get? name).or (first? name rest) := by
    intro rest
    induction rest with
    | nil => exact fun r => Option.or_none.symm
    | cons t rest ih =>
      intro r
      rw [List.foldl_cons, ih, get?_attempt, Option.or_assoc, first?_cons]
      split <;> rfl
  exact onward types empty

theorem mem_of_get?_ofTypes {types : List (OperatorType σ)} {name : String} {t : OperatorType σ}
    (h : (ofTypes types).get? name = some t) : t ∈ types := by
  rw [get?_ofTypes] at h
  exact List.mem_of_find?_eq_some h

end Registry

def OperatorType.settings {ρ : Type} (recordName : String) (fields : List (Toml.Field ρ))
    (defaults : ρ) (table : Toml.Table) : Except Failure ρ :=
  (Toml.decodeInMemory recordName fields defaults table).mapError fun e =>
    (Failure.mk (e.message .memory) []).context "invalid operator configuration"

def OperatorType.ofRecord {σ ρ : Type} (name : String) (capability : Capability)
    (recordName : String) (fields : List (Toml.Field ρ)) (defaults : ρ)
    (make : String → ρ → Except Failure σ) : OperatorType σ where
  name := name
  capability := capability
  build id table := do
    let settings ← OperatorType.settings recordName fields defaults table
    make id settings

end LogIntake
