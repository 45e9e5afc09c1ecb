import LogIntake.Proofs.Expansion.Resolve

/-!
What a row of tables expands to, and which fault is the first one. Tables are taken from left to right,
and the tables of a template before those behind the table that names it. Both are told by rules that
know neither how much room is left nor how ids are put together; the functions that run agree with
them, so every row either expands or fails, and in one way only.
-/
namespace LogIntake.Build

variable {σ : Type} {registry : Registry σ} {templates : TemplateSet}

/-! ### Where a table stands -/

def pathId (path : List String) : String := ".".intercalate path

/-- The operator whose template holds the tables at the end of a path; those of the pipeline itself are
held by none. -/
def placeOf (path : List String) : Option String := if path = [] then none else some (pathId path)

@[simp] theorem placeOf_nil : placeOf [] = none := rfl

theorem placeOf_append_singleton (path : List String) (localId : String) :
    placeOf (path ++ [localId]) = some (pathId (path ++ [localId])) := by
  simp [placeOf]

theorem fullId_placeOf (path : List String) (localId : String) :
    fullId (placeOf path) localId = pathId (path ++ [localId]) := by
  by_cases h : path = []
  · simp [placeOf, h, fullId, pathId]
  · simp [placeOf, h, fullId, pathId, String.intercalate_append_of_ne_nil, String.append_assoc]

/-! ### What a table says -/

/-- A table says its type and what its operator is called. -/
structure Says (table : Toml.Table) (typeName localId : String) : Prop where
  named : Toml.Entries.get? "type" table = some (.leaf (.string typeName))
  called : LocalId table localId

inductive Misread (place : Option String) (index : Nat) (table : Toml.Table) : BuildError → Prop
  | missingType (unsaid : Toml.Entries.get? "type" table = none) :
      Misread place index table (.missingType index place)
  | typeNotText {v : Toml.Value} (said : Toml.Entries.get? "type" table = some v)
      (other : ∀ s, v ≠ .leaf (.string s)) :
      Misread place index table (.notAString "type" index place v.typeName)
  | idNotText {typeName : String} {v : Toml.Value}
      (named : Toml.Entries.get? "type" table = some (.leaf (.string typeName)))
      (said : Toml.Entries.get? "id" table = some v) (other : ∀ s, v ≠ .leaf (.string s)) :
      Misread place index table (.notAString "id" index place v.typeName)

/-- The type that a table says is no registered one but the name of a template. -/
structure StandsFor (registry : Registry σ) (templates : TemplateSet) (table : Toml.Table)
    (typeName localId : String) (t : Template) : Prop extends Says table typeName localId where
  unregistered : registry.get? typeName = none
  found : templates.get? typeName = some t

/-! ### The rules -/

/-- What the tables at the end of a path expand to, inside the templates of a stack. -/
inductive Expands (registry : Registry σ) (templates : TemplateSet) :
    List String → List String → List Toml.Table → List (Resolved σ) → Prop
  | nil (path stack : List String) : Expands registry templates path stack [] []
  | operator {path stack : List String} {table : Toml.Table} {rest : List Toml.Table}
      {typeName localId : String} {type : OperatorType σ} {back : List (Resolved σ)}
      (heading : Says table typeName localId) (registered : registry.get? typeName = some type)
      (behind : Expands registry templates path stack rest back) :
      Expands registry templates path stack (table :: rest)
        (⟨pathId (path ++ [localId]), type, settingsOf table⟩ :: back)
  | template {path stack : List String} {table : Toml.Table} {rest tables : List Toml.Table}
      {typeName localId : String} {t : Template} {front back : List (Resolved σ)}
      (stands : StandsFor registry templates table typeName localId t) (fresh : typeName ∉ stack)
      (room : stack.length < maxTemplateDepth)
      (filled : t.instantiate (settingsOf table) = .ok tables)
      (inside : Expands registry templates (path ++ [localId]) (stack ++ [typeName]) tables front)
      (behind : Expands registry templates path stack rest back) :
      Expands registry templates path stack (table :: rest) (front ++ back)

/-- What is wrong with a table before the tables of its template are looked at. -/
inductive Fault (registry : Registry σ) (templates : TemplateSet) (path stack : List String)
    (index : Nat) (table : Toml.Table) : BuildError → Prop
  | misread {e : BuildError} (wrong : Misread (placeOf path) index table e) :
      Fault registry templates path stack index table e
  | unknownType {typeName localId : String} (heading : Says table typeName localId)
      (unregistered : registry.get? typeName = none) (unfound : templates.get? typeName = none) :
      Fault registry templates path stack index table
        (.unknownType (pathId (path ++ [localId])) typeName)
  | cycle {typeName localId : String} {t : Template}
      (stands : StandsFor registry templates table typeName localId t) (around : typeName ∈ stack) :
      Fault registry templates path stack index table
        (.templateCycle typeName (stack ++ [typeName]))
  | tooDeep {typeName localId : String} {t : Template}
      (stands : StandsFor registry templates table typeName localId t) (fresh : typeName ∉ stack)
      (full : maxTemplateDepth ≤ stack.length) :
      Fault registry templates path stack index table (.tooDeep (stack ++ [typeName]))
  | missingParameter {typeName localId parameter : String} {t : Template}
      (stands : StandsFor registry templates table typeName localId t) (fresh : typeName ∉ stack)
      (room : stack.length < maxTemplateDepth)
      (unfilled : t.instantiate (settingsOf table) = .error (.missingParameter parameter)) :
      Fault registry templates path stack index table
        (.missingParameter (pathId (path ++ [localId])) typeName parameter)
  | unknownParameter {typeName localId parameter : String} {t : Template}
      (stands : StandsFor registry templates table typeName localId t) (fresh : typeName ∉ stack)
      (room : stack.length < maxTemplateDepth)
      (unfilled : t.instantiate (settingsOf table) = .error (.unknownParameter parameter)) :
      Fault registry templates path stack index table
        (.unknownParameter (pathId (path ++ [localId])) typeName parameter)

/-- The first fault of a row of tables, whose first table has a place in a longer row. -/
inductive Fails (registry : Registry σ) (templates : TemplateSet) :
    List String → List String → Nat → List Toml.Table → BuildError → Prop
  | here {path stack : List String} {index : Nat} {table : Toml.Table} {e : BuildError}
      (rest : List Toml.Table) (fault : Fault registry templates path stack index table e) :
      Fails registry templates path stack index (table :: rest) e
  | inside {path stack : List String} {index : Nat} {table : Toml.Table} {tables : List Toml.Table}
      {typeName localId : String} {t : Template} {e : BuildError} (rest : List Toml.Table)
      (stands : StandsFor registry templates table typeName localId t) (fresh : typeName ∉ stack)
      (room : stack.length < maxTemplateDepth)
      (filled : t.instantiate (settingsOf table) = .ok tables)
      (within : Fails registry templates (path ++ [localId]) (stack ++ [typeName]) 0 tables e) :
      Fails registry templates path stack index (table :: rest) e
  | behind {path stack : List String} {index : Nat} {table : Toml.Table} {rest : List Toml.Table}
      {front : List (Resolved σ)} {e : BuildError}
      (first : Expands registry templates path stack [table] front)
      (later : Fails registry templates path stack (index + 1) rest e) :
      Fails registry templates path stack index (table :: rest) e

/-! ### Rows -/

theorem Expands.append {path stack : List String} {tables more : List Toml.Table}
    {front back : List (Resolved σ)} (h : Expands registry templates path stack tables front)
    (k : Expands registry templates path stack more back) :
    Expands registry templates path stack (tables ++ more) (front ++ back) := by
  induction h with
  | nil path stack => exact k
  | operator heading registered behind ih => exact .operator heading registered (ih k)
  | template stands fresh room filled inside behind _ ih =>
    rw [List.append_assoc]
    exact .template stands fresh room filled inside (ih k)

/-! ### One table -/

theorem textOf_eq_error_iff {key : String} {index : Nat} {place : Option String} {v : Toml.Value}
    {e : BuildError} : textOf key index place v = .error e ↔
      (∀ s, v ≠ .leaf (.string s)) ∧ e = .notAString key index place v.typeName := by
  cases v with
  | leaf a => cases a <;> simp [textOf, eq_comm]
  | array items => simp [textOf, eq_comm]
  | table entries => simp [textOf, eq_comm]

theorem head_eq_error_iff {index : Nat} {place : Option String} {table : Toml.Table}
    {e : BuildError} : head index place table = .error e ↔ Misread place index table e := by
  have hid : Toml.Entries.get? "id" (Toml.Entries.erase "type" table) =
      Toml.Entries.get? "id" table := Toml.Entries.get?_erase_of_ne (by decide) table
  constructor
  · intro h
    rw [head] at h
    split at h
    · next unsaid =>
      cases h
      exact .missingType unsaid
    · next v said =>
      obtain h | ⟨typeName, hv, h⟩ := bind_eq_error_iff.1 h
      · obtain ⟨other, rfl⟩ := textOf_eq_error_iff.1 h
        exact .typeNotText said other
      · rw [textOf_eq_ok_iff.1 hv] at said
        simp only [hid] at h
        split at h
        · cases h
        · next w called =>
          obtain h | ⟨localId, -, h⟩ := bind_eq_error_iff.1 h
          · obtain ⟨other, rfl⟩ := textOf_eq_error_iff.1 h
            exact .idNotText said called other
          · cases h
  · intro h
    cases h with
    | missingType unsaid => simp only [head, unsaid]
    | @typeNotText v said other =>
      have hv : textOf "type" index place v = .error (.notAString "type" index place v.typeName) :=
        textOf_eq_error_iff.2 ⟨other, rfl⟩
      simp only [head, said]
      exact bind_eq_error_iff.2 (.inl hv)
    | @idNotText typeName v named said other =>
      have hv : textOf "id" index place v = .error (.notAString "id" index place v.typeName) :=
        textOf_eq_error_iff.2 ⟨other, rfl⟩
      simp only [head, named, hid, said]
      exact bind_eq_error_iff.2 (.inr ⟨typeName, rfl, bind_eq_error_iff.2 (.inl hv)⟩)

theorem Says.head_eq {table : Toml.Table} {typeName localId : String}
    (heading : Says table typeName localId) (index : Nat) (place : Option String) :
    head index place table = .ok ⟨typeName, localId, settingsOf table⟩ :=
  head_eq_ok_iff.2 ⟨heading.named, heading.called, rfl⟩

/-! ### The functions keep to the rules -/

/-- How much room there is for templates inside those of a stack. -/
def Room (stack : List String) (room : Nat) : Prop := stack.length + room = maxTemplateDepth

theorem Room.succ {stack : List String} {room : Nat} (h : Room stack room)
    (free : stack.length < maxTemplateDepth) :
    ∃ less, room = less + 1 ∧ ∀ typeName, Room (stack ++ [typeName]) less := by
  unfold Room at h
  refine ⟨room - 1, by omega, fun typeName => ?_⟩
  simp only [Room, List.length_append, List.length_singleton]
  omega

theorem resolveEach_of_expands {path stack : List String} {tables : List Toml.Table}
    {chain : List (Resolved σ)} (h : Expands registry templates path stack tables chain)
    {room : Nat} (hr : Room stack room) (index : Nat) :
    resolveEach (resolveOne registry templates (below registry templates room) (placeOf path) stack)
      index tables = .ok chain := by
  induction h generalizing room index with
  | nil path stack => rfl
  | @operator path stack table rest typeName localId type back heading registered behind ih =>
    have first : Resolves registry templates (placeOf path) stack table
        (below registry templates room) [⟨fullId (placeOf path) localId, type, settingsOf table⟩] :=
      .operator heading.named heading.called registered
    rw [fullId_placeOf] at first
    exact resolveEach_cons_eq_ok_iff.2
      ⟨_, back, resolveOne_eq_ok_iff.2 first, ih hr (index + 1), rfl⟩
  | @template path stack table rest tables typeName localId t front back stands fresh free filled
      inside behind ih ih' =>
    obtain ⟨less, rfl, hless⟩ := hr.succ free
    have resolved := ih (hless typeName) 0
    rw [← resolveAll_eq, placeOf_append_singleton, ← fullId_placeOf] at resolved
    have first : Resolves registry templates (placeOf path) stack table
        (below registry templates (less + 1)) front :=
      .template stands.named stands.called stands.unregistered stands.found fresh filled resolved
    exact resolveEach_cons_eq_ok_iff.2
      ⟨front, back, resolveOne_eq_ok_iff.2 first, ih' hr (index + 1), rfl⟩

theorem resolveEach_cons_of_error {one : Nat → Toml.Table → Except BuildError (List (Resolved σ))}
    {index : Nat} {table : Toml.Table} {e : BuildError} (h : one index table = .error e)
    (rest : List Toml.Table) : resolveEach one index (table :: rest) = .error e :=
  bind_eq_error_iff.2 (.inl h)

theorem resolveEach_singleton_eq_ok_iff
    {one : Nat → Toml.Table → Except BuildError (List (Resolved σ))} {index : Nat}
    {table : Toml.Table} {chain : List (Resolved σ)} :
    resolveEach one index [table] = .ok chain ↔ one index table = .ok chain := by
  rw [resolveEach_cons_eq_ok_iff]
  simp [resolveEach, eq_comm]

theorem StandsFor.resolveOne_eq {table : Toml.Table} {typeName localId : String} {t : Template}
    (stands : StandsFor registry templates table typeName localId t) {stack : List String}
    (fresh : typeName ∉ stack) (descend : Descend σ) (path : List String) (index : Nat) :
    resolveOne registry templates (some descend) (placeOf path) stack index table =
      match t.instantiate (settingsOf table) with
      | .error (.missingParameter p) =>
        .error (.missingParameter (pathId (path ++ [localId])) typeName p)
      | .error (.unknownParameter p) =>
        .error (.unknownParameter (pathId (path ++ [localId])) typeName p)
      | .ok tables => descend (placeOf (path ++ [localId])) (stack ++ [typeName]) tables := by
  have hc : stack.contains typeName = false := by simpa using fresh
  cases filled : t.instantiate (settingsOf table) with
  | error why =>
    cases why <;>
      simp only [resolveOne, stands.head_eq, bind, Except.bind, stands.unregistered, stands.found, hc,
        fullId_placeOf, filled, Bool.false_eq_true, if_false]
  | ok tables =>
    simp only [resolveOne, stands.head_eq, bind, Except.bind, stands.unregistered, stands.found, hc,
      fullId_placeOf, placeOf_append_singleton, filled, Bool.false_eq_true, if_false]

theorem resolveOne_of_fault {path stack : List String} {index : Nat} {table : Toml.Table}
    {e : BuildError} (h : Fault registry templates path stack index table e) {room : Nat}
    (hr : Room stack room) :
    resolveOne registry templates (below registry templates room) (placeOf path) stack index table =
      .error e := by
  cases h with
  | misread wrong => exact bind_eq_error_iff.2 (.inl (head_eq_error_iff.2 wrong))
  | unknownType heading unregistered unfound =>
    simp only [resolveOne, heading.head_eq, bind, Except.bind, unregistered, unfound, fullId_placeOf]
  | @cycle typeName localId t stands around =>
    have hc : stack.contains typeName = true := List.contains_iff_mem.2 around
    simp only [resolveOne, stands.head_eq, bind, Except.bind, stands.unregistered, stands.found, hc,
      if_true]
  | @tooDeep typeName localId t stands fresh full =>
    have hc : stack.contains typeName = false := by simpa using fresh
    obtain rfl : room = 0 := by
      unfold Room at hr
      omega
    simp only [resolveOne, stands.head_eq, bind, Except.bind, stands.unregistered, stands.found, hc,
      below, Bool.false_eq_true, if_false]
  | missingParameter stands fresh free unfilled =>
    obtain ⟨less, rfl, -⟩ := hr.succ free
    rw [below, stands.resolveOne_eq fresh, unfilled]
  | unknownParameter stands fresh free unfilled =>
    obtain ⟨less, rfl, -⟩ := hr.succ free
    rw [below, stands.resolveOne_eq fresh, unfilled]

theorem resolveEach_of_fails {path stack : List String} {index : Nat} {tables : List Toml.Table}
    {e : BuildError} (h : Fails registry templates path stack index tables e) {room : Nat}
    (hr : Room stack room) :
    resolveEach (resolveOne registry templates (below registry templates room) (placeOf path) stack)
      index tables = .error e := by
  induction h generalizing room with
  | here rest fault => exact resolveEach_cons_of_error (resolveOne_of_fault fault hr) rest
  | inside rest stands fresh free filled within ih =>
    obtain ⟨less, rfl, hless⟩ := hr.succ free
    have resolved := ih (hless _)
    rw [← resolveAll_eq] at resolved
    refine resolveEach_cons_of_error ?_ rest
    rw [below, stands.resolveOne_eq fresh, filled]
    exact resolved
  | @behind path stack index table rest front e first later ih =>
    have here := resolveEach_singleton_eq_ok_iff.1 (resolveEach_of_expands first hr index)
    exact bind_eq_error_iff.2 (.inr ⟨front, here, bind_eq_error_iff.2 (.inl (ih hr))⟩)

/-! ### There is always a rule -/

theorem Fails.row {path stack : List String} {index : Nat} {table : Toml.Table} {e : BuildError}
    (h : Fails registry templates path stack index [table] e) (rest : List Toml.Table) :
    Fails registry templates path stack index (table :: rest) e := by
  cases h with
  | here _ fault => exact .here rest fault
  | inside _ stands fresh free filled within => exact .inside rest stands fresh free filled within
  | behind _ later => cases later

theorem StandsFor.expands_or_fails {path stack : List String} {table : Toml.Table}
    {typeName localId : String} {t : Template}
    (stands : StandsFor registry templates table typeName localId t)
    (h : typeName ∉ stack → stack.length < maxTemplateDepth → ∀ tables,
      (∃ chain, Expands registry templates (path ++ [localId]) (stack ++ [typeName]) tables chain) ∨
      ∃ e, Fails registry templates (path ++ [localId]) (stack ++ [typeName]) 0 tables e)
    (index : Nat) :
    (∃ chain, Expands registry templates path stack [table] chain) ∨
      ∃ e, Fails registry templates path stack index [table] e := by
  by_cases fresh : typeName ∈ stack
  · exact .inr ⟨_, .here [] (.cycle stands fresh)⟩
  · by_cases free : stack.length < maxTemplateDepth
    · cases filled : t.instantiate (settingsOf table) with
      | error why =>
        cases why with
        | missingParameter p => exact .inr ⟨_, .here [] (.missingParameter stands fresh free filled)⟩
        | unknownParameter p => exact .inr ⟨_, .here [] (.unknownParameter stands fresh free filled)⟩
      | ok tables =>
        obtain ⟨chain, inside⟩ | ⟨e, within⟩ := h fresh free tables
        · exact .inl ⟨_, .template stands fresh free filled inside (.nil path stack)⟩
        · exact .inr ⟨e, .inside [] stands fresh free filled within⟩
    · exact .inr ⟨_, .here [] (.tooDeep stands fresh (Nat.le_of_not_lt free))⟩

theorem table_expands_or_fails {path stack : List String} {table : Toml.Table}
    (h : ∀ name typeName, stack.length < maxTemplateDepth → ∀ tables,
      (∃ chain, Expands registry templates (path ++ [name]) (stack ++ [typeName]) tables chain) ∨
      ∃ e, Fails registry templates (path ++ [name]) (stack ++ [typeName]) 0 tables e)
    (index : Nat) :
    (∃ chain, Expands registry templates path stack [table] chain) ∨
      ∃ e, Fails registry templates path stack index [table] e := by
  cases said : head index (placeOf path) table with
  | error e => exact .inr ⟨e, .here [] (.misread (head_eq_error_iff.1 said))⟩
  | ok said' =>
    obtain ⟨named, called, -⟩ := head_eq_ok_iff.1 said
    have heading : Says table said'.typeName said'.localId := ⟨named, called⟩
    cases registered : registry.get? said'.typeName with
    | some type => exact .inl ⟨_, .operator heading registered (.nil path stack)⟩
    | none =>
      cases found : templates.get? said'.typeName with
      | none => exact .inr ⟨_, .here [] (.unknownType heading registered found)⟩
      | some t =>
        exact StandsFor.expands_or_fails ⟨heading, registered, found⟩ (fun _ free => h _ _ free) index

theorem expands_or_fails (path stack : List String) (index : Nat) (tables : List Toml.Table) :
    (∃ chain, Expands registry templates path stack tables chain) ∨
      ∃ e, Fails registry templates path stack index tables e := by
  -- templates leave less room to those inside them
  induction hn : maxTemplateDepth - stack.length using Nat.strongRecOn generalizing path stack index
    tables with
  | ind n deeper =>
    have inside : ∀ name typeName, stack.length < maxTemplateDepth → ∀ tables,
        (∃ chain, Expands registry templates (path ++ [name]) (stack ++ [typeName]) tables chain) ∨
        ∃ e, Fails registry templates (path ++ [name]) (stack ++ [typeName]) 0 tables e := by
      intro name typeName free tables
      refine deeper _ ?_ (path ++ [name]) (stack ++ [typeName]) 0 tables rfl
      simp only [List.length_append, List.length_singleton]
      omega
    induction tables generalizing index with
    | nil => exact .inl ⟨[], .nil path stack⟩
    | cons table rest ih =>
      obtain ⟨front, first⟩ | ⟨e, fault⟩ := table_expands_or_fails inside index
      · obtain ⟨back, behind⟩ | ⟨e, later⟩ := ih (index + 1)
        · exact .inl ⟨_, first.append behind⟩
        · exact .inr ⟨e, .behind first later⟩
      · exact .inr ⟨e, fault.row rest⟩

/-! ### The functions say what the rules say -/

theorem resolveEach_eq_ok_iff {path stack : List String} {room : Nat} (hr : Room stack room)
    {index : Nat} {tables : List Toml.Table} {chain : List (Resolved σ)} :
    resolveEach (resolveOne registry templates (below registry templates room) (placeOf path) stack)
      index tables = .ok chain ↔ Expands registry templates path stack tables chain := by
  constructor
  · intro h
    rcases expands_or_fails path stack index tables with ⟨chain', expands⟩ | ⟨e, fails⟩
    · have same := resolveEach_of_expands expands hr index
      obtain rfl := Except.ok.inj (h.symm.trans same)
      exact expands
    · have other := resolveEach_of_fails fails hr
      cases h.symm.trans other
  · intro expands
    exact resolveEach_of_expands expands hr index

theorem resolveEach_eq_error_iff {path stack : List String} {room : Nat} (hr : Room stack room)
    {index : Nat} {tables : List Toml.Table} {e : BuildError} :
    resolveEach (resolveOne registry templates (below registry templates room) (placeOf path) stack)
      index tables = .error e ↔ Fails registry templates path stack index tables e := by
  constructor
  · intro h
    rcases expands_or_fails path stack index tables with ⟨chain, expands⟩ | ⟨e', fails⟩
    · have other := resolveEach_of_expands expands hr index
      cases h.symm.trans other
    · have same := resolveEach_of_fails fails hr
      obtain rfl := Except.error.inj (h.symm.trans same)
      exact fails
  · intro fails
    exact resolveEach_of_fails fails hr

theorem expand_eq_ok_iff {tables : List Toml.Table} {chain : List (Resolved σ)} :
    expand registry templates tables = .ok chain ↔ Expands registry templates [] [] tables chain := by
  rw [expand, resolveAll_eq, ← placeOf_nil]
  have outermost : Room [] maxTemplateDepth := rfl
  exact resolveEach_eq_ok_iff outermost

theorem expand_eq_error_iff {tables : List Toml.Table} {e : BuildError} :
    expand registry templates tables = .error e ↔ Fails registry templates [] [] 0 tables e := by
  rw [expand, resolveAll_eq, ← placeOf_nil]
  have outermost : Room [] maxTemplateDepth := rfl
  exact resolveEach_eq_error_iff outermost

end LogIntake.Build
