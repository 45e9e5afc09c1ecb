import LogIntake.Operator.Builtin

/-!
The registry as calls on it make it. Names only come to it, one after another, and each keeps the type that
was registered first. A row of types is registered up to the first one whose name is taken.
-/
namespace LogIntake.Registry

variable {σ : Type} {r r' : Registry σ} {t : OperatorType σ} {row front rest : List (OperatorType σ)}

/-- No name of a row is taken, and none stands in it twice. -/
structure Free (r : Registry σ) (row : List (OperatorType σ)) : Prop where
  new : ∀ t ∈ row, r.get? t.name = none
  distinct : (row.map OperatorType.name).Nodup

/-- What of a row is registered: all of it, or what stands in front of the first type whose name is taken,
in the registry or in front of it, and then this name is told. -/
inductive Admits (r : Registry σ) :
    List (OperatorType σ) → List (OperatorType σ) → Option DuplicateType → Prop
  | all {row : List (OperatorType σ)} (free : Free r row) : Admits r row row none
  | upTo {front rest : List (OperatorType σ)} {t : OperatorType σ} (free : Free r front)
      (taken : (r.get? t.name).isSome = true ∨ t.name ∈ front.map OperatorType.name) :
      Admits r (front ++ t :: rest) front (some ⟨t.name⟩)

/-! ### A row -/

theorem free_nil (r : Registry σ) : Free r [] := ⟨nofun, .nil⟩

/-- A row is free if its first type is, and the others are once that one is registered. -/
theorem Free.cons (free : r.get? t.name = none)
    (found : ∀ name, r'.get? name = if t.name = name then some t else r.get? name)
    (others : Free r' row) : Free r (t :: row) := by
  have other : ∀ s ∈ row, t.name ≠ s.name ∧ r.get? s.name = none := by
    intro s hs
    have unknown := others.new s hs
    rw [found] at unknown
    split at unknown
    · cases unknown
    · next apart => exact ⟨apart, unknown⟩
  refine ⟨List.forall_mem_cons.2 ⟨free, fun s hs => (other s hs).2⟩, ?_⟩
  rw [List.map_cons, List.nodup_cons]
  refine ⟨fun again => ?_, others.distinct⟩
  obtain ⟨s, hs, same⟩ := List.mem_map.1 again
  exact (other s hs).1 same.symm

theorem Admits.cons {told : Option DuplicateType} (free : r.get? t.name = none)
    (found : ∀ name, r'.get? name = if t.name = name then some t else r.get? name)
    (others : Admits r' row front told) : Admits r (t :: row) (t :: front) told := by
  cases others with
  | all others => exact .all (.cons free found others)
  | @upTo front rest s others taken =>
    show Admits r ((t :: front) ++ s :: rest) (t :: front) _
    refine .upTo (.cons free found others) ?_
    rw [List.map_cons, List.mem_cons]
    obtain known | before := taken
    · rw [found] at known
      split at known
      · next same => exact .inr (.inl same.symm)
      · exact .inl known
    · exact .inr (.inr before)

theorem registerAll_admits (row : List (OperatorType σ)) (r : Registry σ) :
    ∃ front, Admits r row front (r.registerAll row).2 ∧
      ∀ name, (r.registerAll row).1.get? name = (r.get? name).or (first? name front) := by
  induction row generalizing r with
  | nil => exact ⟨[], .all (free_nil r), fun name => Option.or_none.symm⟩
  | cons t rest ih =>
    cases stands : r.get? t.name with
    | none =>
      obtain ⟨r', registered, found⟩ := register_of_free stands
      obtain ⟨front, admits, later⟩ := ih r'
      have onward : r.registerAll (t :: rest) = r'.registerAll rest := by
        rw [registerAll, registered]
      rw [onward]
      refine ⟨t :: front, admits.cons stands found, fun name => ?_⟩
      rw [later, found, first?_cons]
      split
      · next own => rw [← own, stands, Option.none_or, Option.some_or]
      · rfl
    | some s =>
      have refused : r.registerAll (t :: rest) = (r, some ⟨t.name⟩) := by
        rw [registerAll, register_of_taken stands]
      rw [refused]
      have atOnce : Admits r ([] ++ t :: rest) [] (some ⟨t.name⟩) :=
        .upTo (free_nil r) (.inl (by rw [stands]; rfl))
      exact ⟨[], atOnce, fun name => Option.or_none.symm⟩

/-! ### Calls -/

inductive Call (σ : Type) where
  | register (type : OperatorType σ)
  | registerAll (row : List (OperatorType σ))

def Call.types : Call σ → List (OperatorType σ)
  | register type => [type]
  | registerAll row => row

/-- The registry after a call, and what the caller is told. One that is refused stays. -/
def serve : Call σ → Registry σ → Registry σ × Option DuplicateType
  | .register type, r =>
    match r.register type with
    | .ok r => (r, none)
    | .error taken => (r, some taken)
  | .registerAll row, r => r.registerAll row

def run (calls : List (Call σ)) (r : Registry σ) : Registry σ :=
  calls.foldl (fun r call => (r.serve call).1) r

/-- What calls, one after another, have registered, in order. -/
inductive Registers : Registry σ → List (Call σ) → List (OperatorType σ) → Prop
  | nil (r : Registry σ) : Registers r [] []
  | cons {r : Registry σ} {call : Call σ} {calls : List (Call σ)}
      {front later : List (OperatorType σ)} (admits : Admits r call.types front (r.serve call).2)
      (others : Registers (r.serve call).1 calls later) : Registers r (call :: calls) (front ++ later)

theorem serve_register_eq (t : OperatorType σ) (r : Registry σ) :
    r.serve (.register t) = r.registerAll [t] := by
  rw [serve, registerAll]
  cases r.register t <;> rfl

theorem serve_admits (call : Call σ) (r : Registry σ) :
    ∃ front, Admits r call.types front (r.serve call).2 ∧
      ∀ name, (r.serve call).1.get? name = (r.get? name).or (first? name front) := by
  cases call with
  | register t =>
    rw [serve_register_eq]
    exact registerAll_admits [t] r
  | registerAll row => exact registerAll_admits row r

theorem run_registers (calls : List (Call σ)) (r : Registry σ) :
    ∃ log, Registers r calls log ∧
      ∀ name, (run calls r).get? name = (r.get? name).or (first? name log) := by
  induction calls generalizing r with
  | nil => exact ⟨[], .nil r, fun name => Option.or_none.symm⟩
  | cons call rest ih =>
    obtain ⟨front, admits, found⟩ := serve_admits call r
    obtain ⟨later, registers, onward⟩ := ih (r.serve call).1
    refine ⟨front ++ later, .cons admits registers, fun name => ?_⟩
    show (run rest (r.serve call).1).get? name = _
    rw [onward, found, Option.or_assoc, first?, first?, first?, List.find?_append]

theorem mem_typeNames_iff (name : String) (r : Registry σ) :
    name ∈ r.typeNames ↔ r.contains name = true :=
  TextMap.mem_keys_iff

/-- A registry that begins with some types, none or the built-in ones or any others, only grows under
calls. After any of them a name stands for the type that was registered first under it, a name that is
taken is refused and nothing is changed by that, and a row is registered up to the first such name, which is
told. What is registered, what is contained and what is listed agree, and the listing is in order and
without repetitions. -/
theorem first_registration_stays (types : List (OperatorType σ)) (calls : List (Call σ)) :
    ∃ log, Registers (ofTypes types) calls log ∧
      let r := run calls (ofTypes types)
      (∀ name, r.get? name = first? name (types ++ log)) ∧
      (∀ t, (∃ s, r.get? t.name = some s ∧ r.serve (.register t) = (r, some ⟨t.name⟩)) ∨
        r.get? t.name = none ∧ (r.serve (.register t)).2 = none ∧
          ∀ name, (r.serve (.register t)).1.get? name =
            if t.name = name then some t else r.get? name) ∧
      (∀ row, ∃ front, Admits r row front (r.registerAll row).2 ∧
        ∀ name, (r.registerAll row).1.get? name = (r.get? name).or (first? name front)) ∧
      (∀ name, r.contains name = (r.get? name).isSome ∧
        (name ∈ r.typeNames ↔ r.contains name = true)) ∧
      r.typeNames.Pairwise (· < ·) := by
  obtain ⟨log, registers, found⟩ := run_registers calls (ofTypes types)
  refine ⟨log, registers, fun name => ?_, fun t => ?_, fun row => registerAll_admits row _,
    fun name => ⟨rfl, mem_typeNames_iff name _⟩, TextMap.keys_sorted _⟩
  · rw [found, get?_ofTypes, first?, first?, first?, List.find?_append]
  · cases stands : (run calls (ofTypes types)).get? t.name with
    | none =>
      obtain ⟨r', registered, found⟩ := register_of_free stands
      refine .inr ⟨rfl, ?_⟩
      rw [serve, registered]
      exact ⟨rfl, found⟩
    | some s =>
      refine .inl ⟨s, rfl, ?_⟩
      rw [serve, register_of_taken stands]

/-- A name that comes twice in one row keeps the first type, and what stands behind it stays out. -/
example :
    let build : String → Toml.Table → Except Failure Unit := fun _ _ => .ok ()
    let r := registerAll [⟨"tail", .input, build⟩, ⟨"grep", .output, build⟩,
      ⟨"tail", .output, build⟩, ⟨"sed", .output, build⟩] empty
    r.1.typeNames = ["grep", "tail"] ∧
      (r.1.get? "tail").map OperatorType.capability = some .input ∧ r.2 = some ⟨"tail"⟩ := by
  decide

end LogIntake.Registry
