import LogIntake.Proofs.Expansion.Building

/-!
How deep templates nest. The expansion is told here step by step, with one stack of names that all rows
of tables share: a name is put on it where the tables of its template are entered, and taken off where
they are done. The steps come to an end, with what the recursive functions give; the stack never grows
beyond its bound and never holds a name twice; and a fault of nesting is reported exactly where the steps
come to a template that the stack has no place for.
-/
namespace LogIntake.Build

variable {σ : Type} {registry : Registry σ} {templates : TemplateSet}

/-! ### The steps -/

structure Row where
  /-- The template that the tables are from; those of the pipeline itself are from none. -/
  template : Option String := none
  /-- The id of the operator that the template stands for. -/
  place : Option String := none
  /-- The place of the first table that is left, in its row. -/
  index : Nat := 0
  tables : List Toml.Table

structure Walk (σ : Type) where
  /-- The templates that are being expanded, the outermost first. -/
  stack : List String := []
  /-- The rows under way, the innermost first. -/
  rows : List Row
  resolved : List (Resolved σ) := []

namespace Walk

/-- A step, after which the walk goes on or has a result. -/
inductive Progress (σ : Type) where
  | goesOn (w : Walk σ)
  | ends (result : Except BuildError (List (Resolved σ)))

def begin (tables : List Toml.Table) : Walk σ := { rows := [{ tables }] }

/-- Comes to a table that stands for the tables of a template; `outer` is what is left behind it. -/
def enter (typeName id : String) (t : Template) (settings : Toml.Table) (outer : List Row)
    (w : Walk σ) : Progress σ :=
  if w.stack.contains typeName then .ends (.error (.templateCycle typeName (w.stack ++ [typeName])))
  else if maxTemplateDepth ≤ w.stack.length then .ends (.error (.tooDeep (w.stack ++ [typeName])))
  else
    match t.instantiate settings with
    | .error (.missingParameter p) => .ends (.error (.missingParameter id typeName p))
    | .error (.unknownParameter p) => .ends (.error (.unknownParameter id typeName p))
    | .ok tables =>
      .goesOn
        { w with
          stack := w.stack ++ [typeName]
          rows := { template := some typeName, place := some id, tables } :: outer }

/-- Takes the first table that is left in the innermost row, or leaves the row. -/
def step (registry : Registry σ) (templates : TemplateSet) (w : Walk σ) : Progress σ :=
  match w.rows with
  | [] => .ends (.ok w.resolved)
  | row :: outer =>
    match row.tables with
    | [] => .goesOn { w with stack := w.stack.dropLast, rows := outer }
    | table :: rest =>
      match head row.index row.place table with
      | .error e => .ends (.error e)
      | .ok h =>
        let id := fullId row.place h.localId
        let behind := { row with index := row.index + 1, tables := rest } :: outer
        match registry.get? h.typeName with
        | some type =>
          .goesOn { w with rows := behind, resolved := w.resolved ++ [⟨id, type, h.settings⟩] }
        | none =>
          match templates.get? h.typeName with
          | none => .ends (.error (.unknownType id h.typeName))
          | some t => w.enter h.typeName id t h.settings behind

inductive Runs (registry : Registry σ) (templates : TemplateSet) : Walk σ → Nat → Walk σ → Prop
  | refl (w : Walk σ) : Runs registry templates w 0 w
  | succ {w between last : Walk σ} {n : Nat} (first : w.step registry templates = .goesOn between)
      (rest : Runs registry templates between n last) : Runs registry templates w (n + 1) last

def ComesTo (registry : Registry σ) (templates : TemplateSet) (typeName : String) (w : Walk σ) :
    Prop :=
  ∃ row outer table rest localId t, w.rows = row :: outer ∧ row.tables = table :: rest ∧
    StandsFor registry templates table typeName localId t

namespace Runs

variable {a b c : Walk σ} {m n : Nat}

theorem single (h : a.step registry templates = .goesOn b) : Runs registry templates a 1 b :=
  .succ h (.refl b)

theorem trans (h : Runs registry templates a m b) (k : Runs registry templates b n c) :
    Runs registry templates a (m + n) c := by
  induction h with
  | refl w => rwa [Nat.zero_add]
  | succ first rest ih =>
    rw [Nat.add_right_comm]
    exact .succ first (ih k)

/-- Two ways from one walk to an end are one way. -/
theorem end_unique {r r' : Except BuildError (List (Resolved σ))}
    (h : Runs registry templates a m b) (k : Runs registry templates a n c)
    (atEnd : b.step registry templates = .ends r) (atEnd' : c.step registry templates = .ends r') :
    b = c := by
  induction h generalizing n with
  | refl w =>
    cases k with
    | refl => rfl
    | succ first rest => cases atEnd.symm.trans first
  | succ first rest ih =>
    cases k with
    | refl => cases atEnd'.symm.trans first
    | succ first' rest' =>
      cases first.symm.trans first'
      exact ih rest' atEnd

/-- No way is longer than one to an end. -/
theorem length_le {r : Except BuildError (List (Resolved σ))} (h : Runs registry templates a m b)
    (atEnd : b.step registry templates = .ends r) (k : Runs registry templates a n c) : n ≤ m := by
  induction h generalizing n with
  | refl w =>
    cases k with
    | refl => exact Nat.le_refl 0
    | succ first rest => cases atEnd.symm.trans first
  | succ first rest ih =>
    cases k with
    | refl => exact Nat.zero_le _
    | succ first' rest' =>
      cases first.symm.trans first'
      exact Nat.succ_le_succ (ih atEnd rest')

end Runs

/-! ### What a step does -/

theorem step_of_nil (stack : List String) (row : Row) (outer : List Row)
    (resolved : List (Resolved σ)) (done : row.tables = []) :
    step registry templates ⟨stack, row :: outer, resolved⟩ =
      .goesOn ⟨stack.dropLast, outer, resolved⟩ := by
  simp only [step, done]

theorem step_of_head {row : Row} {table : Toml.Table} {rest : List Toml.Table}
    {typeName localId : String} (heading : Says table typeName localId)
    (next : row.tables = table :: rest) (stack : List String) (outer : List Row)
    (resolved : List (Resolved σ)) :
    step registry templates ⟨stack, row :: outer, resolved⟩ =
      match registry.get? typeName with
      | some type =>
        .goesOn
          ⟨stack, { row with index := row.index + 1, tables := rest } :: outer,
            resolved ++ [⟨fullId row.place localId, type, settingsOf table⟩]⟩
      | none =>
        match templates.get? typeName with
        | none => .ends (.error (.unknownType (fullId row.place localId) typeName))
        | some t =>
          enter typeName (fullId row.place localId) t (settingsOf table)
            ({ row with index := row.index + 1, tables := rest } :: outer)
            ⟨stack, row :: outer, resolved⟩ := by
  simp only [step, next, heading.head_eq]

theorem step_of_registered (row : Row) {table : Toml.Table} {rest : List Toml.Table}
    {typeName localId : String} {type : OperatorType σ} (heading : Says table typeName localId)
    (registered : registry.get? typeName = some type) (next : row.tables = table :: rest)
    (stack : List String) (outer : List Row) (resolved : List (Resolved σ)) :
    step registry templates ⟨stack, row :: outer, resolved⟩ =
      .goesOn
        ⟨stack, { row with index := row.index + 1, tables := rest } :: outer,
          resolved ++ [⟨fullId row.place localId, type, settingsOf table⟩]⟩ := by
  rw [step_of_head heading next, registered]

theorem step_of_standsFor (row : Row) {table : Toml.Table} {rest tables : List Toml.Table}
    {typeName localId : String} {t : Template} {stack : List String}
    (stands : StandsFor registry templates table typeName localId t) (fresh : typeName ∉ stack)
    (room : stack.length < maxTemplateDepth) (filled : t.instantiate (settingsOf table) = .ok tables)
    (next : row.tables = table :: rest) (outer : List Row) (resolved : List (Resolved σ)) :
    step registry templates ⟨stack, row :: outer, resolved⟩ =
      .goesOn
        ⟨stack ++ [typeName],
          { template := some typeName, place := some (fullId row.place localId), tables } ::
            { row with index := row.index + 1, tables := rest } :: outer, resolved⟩ := by
  have hc : stack.contains typeName = false := by simpa using fresh
  have hroom : ¬ maxTemplateDepth ≤ stack.length := Nat.not_le_of_lt room
  rw [step_of_head stands.toSays next, stands.unregistered, stands.found]
  simp only [enter, hc, hroom, filled, if_false, Bool.false_eq_true]

theorem step_of_fault {path stack : List String} {index : Nat} {table : Toml.Table}
    {rest : List Toml.Table} {e : BuildError}
    (h : Fault registry templates path stack index table e) (template : Option String)
    (outer : List Row) (resolved : List (Resolved σ)) :
    step registry templates
      ⟨stack, ⟨template, placeOf path, index, table :: rest⟩ :: outer, resolved⟩ =
        .ends (.error e) := by
  cases h with
  | misread wrong => simp only [step, head_eq_error_iff.2 wrong]
  | unknownType heading unregistered unfound =>
    rw [step_of_head heading rfl, unregistered, unfound, fullId_placeOf]
  | @cycle typeName localId t stands around =>
    have hc : stack.contains typeName = true := List.contains_iff_mem.2 around
    rw [step_of_head stands.toSays rfl, stands.unregistered, stands.found]
    simp only [enter, hc, if_true]
  | @tooDeep typeName localId t stands fresh full =>
    have hc : stack.contains typeName = false := by simpa using fresh
    rw [step_of_head stands.toSays rfl, stands.unregistered, stands.found]
    simp only [enter, hc, full, if_true, if_false, Bool.false_eq_true]
  | @missingParameter typeName localId parameter t stands fresh room unfilled =>
    have hc : stack.contains typeName = false := by simpa using fresh
    have hroom : ¬ maxTemplateDepth ≤ stack.length := Nat.not_le_of_lt room
    rw [step_of_head stands.toSays rfl, stands.unregistered, stands.found]
    simp only [enter, hc, hroom, unfilled, fullId_placeOf, if_false, Bool.false_eq_true]
  | @unknownParameter typeName localId parameter t stands fresh room unfilled =>
    have hc : stack.contains typeName = false := by simpa using fresh
    have hroom : ¬ maxTemplateDepth ≤ stack.length := Nat.not_le_of_lt room
    rw [step_of_head stands.toSays rfl, stands.unregistered, stands.found]
    simp only [enter, hc, hroom, unfilled, fullId_placeOf, if_false, Bool.false_eq_true]

inductive Moves (registry : Registry σ) (templates : TemplateSet) : Walk σ → Walk σ → Prop
  | leaves {stack : List String} {row : Row} {outer : List Row} {resolved : List (Resolved σ)}
      (done : row.tables = []) :
      Moves registry templates ⟨stack, row :: outer, resolved⟩ ⟨stack.dropLast, outer, resolved⟩
  | resolves {stack : List String} {row : Row} {outer : List Row} {resolved : List (Resolved σ)}
      {rest : List Toml.Table} (r : Resolved σ) :
      Moves registry templates ⟨stack, row :: outer, resolved⟩
        ⟨stack, { row with index := row.index + 1, tables := rest } :: outer, resolved ++ [r]⟩
  | enters {stack : List String} {row : Row} {outer : List Row} {resolved : List (Resolved σ)}
      {rest tables : List Toml.Table} {typeName id : String} (fresh : typeName ∉ stack)
      (room : stack.length < maxTemplateDepth) :
      Moves registry templates ⟨stack, row :: outer, resolved⟩
        ⟨stack ++ [typeName],
          { template := some typeName, place := some id, tables } ::
            { row with index := row.index + 1, tables := rest } :: outer, resolved⟩

theorem moves_of_step {w w' : Walk σ} (h : w.step registry templates = .goesOn w') :
    Moves registry templates w w' := by
  obtain ⟨stack, rows, resolved⟩ := w
  cases rows with
  | nil => cases h
  | cons row outer =>
    cases next : row.tables with
    | nil =>
      rw [step_of_nil stack row outer resolved next] at h
      cases h
      exact .leaves next
    | cons table rest =>
      cases said : head row.index row.place table with
      | error e => simp [step, next, said] at h
      | ok h' =>
        obtain ⟨named, called, -⟩ := head_eq_ok_iff.1 said
        rw [step_of_head ⟨named, called⟩ next] at h
        split at h
        · cases h
          exact .resolves _
        · split at h
          · cases h
          · rw [enter] at h
            split at h
            · cases h
            · next fresh =>
              split at h
              · cases h
              · next room =>
                split at h
                · cases h
                · cases h
                · cases h
                  exact .enters (by simpa using fresh) (Nat.lt_of_not_le room)

/-- Where a walk comes to a template, the stack decides whether it is a cycle or too deep. -/
theorem ComesTo.step_eq {w : Walk σ} {typeName : String}
    (comes : w.ComesTo registry templates typeName) :
    (typeName ∈ w.stack → w.step registry templates =
      .ends (.error (.templateCycle typeName (w.stack ++ [typeName])))) ∧
    (typeName ∉ w.stack → maxTemplateDepth ≤ w.stack.length → w.step registry templates =
      .ends (.error (.tooDeep (w.stack ++ [typeName])))) := by
  obtain ⟨row, outer, table, rest, localId, t, rows, next, stands⟩ := comes
  obtain ⟨stack, _, resolved⟩ := w
  obtain rfl : _ = row :: outer := rows
  rw [step_of_head stands.toSays next, stands.unregistered, stands.found]
  constructor
  · intro around
    simp only [enter, List.contains_iff_mem.2 around, if_true]
  · intro fresh full
    have hc : stack.contains typeName = false := by simpa using fresh
    simp only [enter, hc, full, if_true, Bool.false_eq_true, if_false]

/-- A fault of nesting is reported nowhere else. -/
theorem comesTo_of_step_eq {w : Walk σ} {e : BuildError}
    (h : w.step registry templates = .ends (.error e)) :
    (∀ name chain, e = .templateCycle name chain → w.ComesTo registry templates name ∧
      name ∈ w.stack ∧ chain = w.stack ++ [name]) ∧
    (∀ chain, e = .tooDeep chain → ∃ name, w.ComesTo registry templates name ∧
      name ∉ w.stack ∧ maxTemplateDepth ≤ w.stack.length ∧ chain = w.stack ++ [name]) := by
  obtain ⟨stack, rows, resolved⟩ := w
  cases rows with
  | nil => cases h
  | cons row outer =>
    cases next : row.tables with
    | nil =>
      rw [step_of_nil stack row outer resolved next] at h
      cases h
    | cons table rest =>
      cases said : head row.index row.place table with
      | error e' =>
        simp only [step, next, said] at h
        cases h
        cases head_eq_error_iff.1 said <;> simp
      | ok h' =>
        obtain ⟨named, called, -⟩ := head_eq_ok_iff.1 said
        have heading : Says table h'.typeName h'.localId := ⟨named, called⟩
        rw [step_of_head heading next] at h
        split at h
        · cases h
        · next unregistered =>
          split at h
          · cases h
            simp
          · next t found =>
            have comes : ComesTo registry templates h'.typeName ⟨stack, row :: outer, resolved⟩ :=
              ⟨row, outer, table, rest, h'.localId, t, rfl, next, heading, unregistered, found⟩
            rw [enter] at h
            split at h
            · next around =>
              cases h
              refine ⟨?_, by simp⟩
              rintro name chain ⟨rfl, rfl⟩
              exact ⟨comes, List.contains_iff_mem.1 around, rfl⟩
            · next fresh =>
              split at h
              · next full =>
                cases h
                refine ⟨by simp, ?_⟩
                rintro chain ⟨rfl⟩
                exact ⟨_, comes, by simpa using fresh, full, rfl⟩
              · split at h
                · cases h
                  simp
                · cases h
                  simp
                · cases h

/-! ### The stack -/

/-- The stack is that of the rows under way, without a name that comes twice, and within its bound. -/
structure Stacked (w : Walk σ) : Prop where
  names : (w.rows = [] ∧ w.stack = []) ∨ w.rows.map Row.template = w.stack.reverse.map some ++ [none]
  distinct : w.stack.Nodup
  bounded : w.stack.length ≤ maxTemplateDepth

theorem stacked_begin (tables : List Toml.Table) : Stacked (begin tables : Walk σ) :=
  ⟨.inr rfl, .nil, Nat.zero_le _⟩

theorem Stacked.step {w w' : Walk σ} (h : w.Stacked)
    (next : w.step registry templates = .goesOn w') : w'.Stacked := by
  obtain ⟨names, distinct, bounded⟩ := h
  cases moves_of_step next with
  | @leaves stack row outer resolved done =>
    refine ⟨?_, distinct.sublist (List.dropLast_sublist stack), ?_⟩
    · obtain ⟨none', -⟩ | names := names
      · cases none'
      · -- the last name is that of the row which is left
        cases hs : stack.reverse with
        | nil =>
          obtain rfl : stack = [] := List.reverse_eq_nil_iff.1 hs
          have only : outer = [] := by simpa using congrArg List.tail names
          exact .inl ⟨only, rfl⟩
        | cons top below =>
          obtain rfl : stack = below.reverse ++ [top] := by simpa using congrArg List.reverse hs
          have others : outer.map Row.template = below.map some ++ [none] := by
            simpa using congrArg List.tail names
          exact .inr (by simpa using others)
    · exact Nat.le_trans (List.dropLast_sublist stack).length_le bounded
  | resolves r =>
    refine ⟨?_, distinct, bounded⟩
    obtain ⟨none', -⟩ | names := names
    · cases none'
    · exact .inr names
  | @enters stack row outer resolved rest tables typeName id fresh room =>
    refine ⟨?_, ?_, ?_⟩
    · obtain ⟨none', -⟩ | names := names
      · cases none'
      · exact .inr (by simpa using names)
    · have apart : ∀ a ∈ stack, a ≠ typeName := by
        rintro a ha rfl
        exact fresh ha
      simpa [List.nodup_append] using And.intro distinct apart
    · simpa using Nat.succ_le_of_lt room

theorem Runs.stacked {w w' : Walk σ} {n : Nat} (run : Runs registry templates w n w')
    (h : w.Stacked) : w'.Stacked := by
  induction run with
  | refl w => exact h
  | succ first rest ih => exact ih (h.step first)

theorem Stacked.stack_eq {w : Walk σ} (h : w.Stacked) :
    w.stack = w.rows.reverse.filterMap Row.template := by
  obtain ⟨rows, stack⟩ | names := h.names
  · rw [rows, stack]
    rfl
  · have all : w.rows.reverse.filterMap Row.template = (w.rows.map Row.template).reverse.filterMap id := by
      rw [← List.map_reverse, List.filterMap_map]
      rfl
    rw [all, names]
    simp [List.filterMap_map]

/-! ### The walk comes to what the tables expand to -/

/-- Tables that expand are gone through, and leave the stack as it was. -/
theorem runs_of_expands {path stack : List String} {tables : List Toml.Table}
    {chain : List (Resolved σ)} (h : Expands registry templates path stack tables chain)
    (template : Option String) (index : Nat) (more : List Toml.Table) (outer : List Row)
    (resolved : List (Resolved σ)) :
    ∃ n, Runs registry templates
      ⟨stack, ⟨template, placeOf path, index, tables ++ more⟩ :: outer, resolved⟩ n
      ⟨stack, ⟨template, placeOf path, index + tables.length, more⟩ :: outer, resolved ++ chain⟩ := by
  induction h generalizing template index more outer resolved with
  | nil path stack => exact ⟨0, by simpa using Runs.refl _⟩
  | @operator path stack table rest typeName localId type back heading registered behind ih =>
    obtain ⟨n, run⟩ := ih template (index + 1) more outer
      (resolved ++ [⟨pathId (path ++ [localId]), type, settingsOf table⟩])
    have first : step registry templates _ = _ := step_of_registered
      ⟨template, placeOf path, index, table :: (rest ++ more)⟩ heading registered rfl stack outer
      resolved
    rw [fullId_placeOf] at first
    refine ⟨n + 1, .succ first ?_⟩
    simpa [Nat.add_assoc, Nat.add_comm 1] using run
  | @template path stack table rest tables typeName localId t front back stands fresh room filled
      inside behind ih ih' =>
    obtain ⟨n, within⟩ := ih (some typeName) 0 []
      (⟨template, placeOf path, index + 1, rest ++ more⟩ :: outer) resolved
    obtain ⟨m, run⟩ := ih' template (index + 1) more outer (resolved ++ front)
    have first := step_of_standsFor ⟨template, placeOf path, index, table :: (rest ++ more)⟩
      stands fresh room filled rfl outer resolved
    rw [fullId_placeOf, ← placeOf_append_singleton] at first
    have last : step registry templates _ = _ := step_of_nil (stack ++ [typeName])
      ⟨some typeName, placeOf (path ++ [localId]), 0 + tables.length, []⟩
      (⟨template, placeOf path, index + 1, rest ++ more⟩ :: outer) (resolved ++ front) rfl
    rw [List.dropLast_concat] at last
    rw [List.append_nil] at within
    refine ⟨1 + n + (1 + m), ((Runs.single first).trans within).trans ((Runs.single last).trans ?_)⟩
    simpa [Nat.add_assoc, Nat.add_comm 1] using run

/-- A row that fails is gone through up to its first fault. -/
theorem runs_of_fails {path stack : List String} {index : Nat} {tables : List Toml.Table}
    {e : BuildError} (h : Fails registry templates path stack index tables e)
    (template : Option String) (outer : List Row) (resolved : List (Resolved σ)) :
    ∃ n w, Runs registry templates
      ⟨stack, ⟨template, placeOf path, index, tables⟩ :: outer, resolved⟩ n w ∧
      w.step registry templates = .ends (.error e) := by
  induction h generalizing template outer resolved with
  | @here path stack index table e rest fault =>
    exact ⟨0, _, .refl _, step_of_fault fault template outer resolved⟩
  | @inside path stack index table tables typeName localId t e rest stands fresh room filled within
      ih =>
    obtain ⟨n, w, run, last⟩ := ih (some typeName)
      (⟨template, placeOf path, index + 1, rest⟩ :: outer) resolved
    have first := step_of_standsFor ⟨template, placeOf path, index, table :: rest⟩ stands fresh
      room filled rfl outer resolved
    rw [fullId_placeOf, ← placeOf_append_singleton] at first
    exact ⟨n + 1, w, .succ first run, last⟩
  | @behind path stack index table rest front e first later ih =>
    obtain ⟨n, through⟩ := runs_of_expands first template index rest outer resolved
    obtain ⟨m, w, run, last⟩ := ih template outer (resolved ++ front)
    exact ⟨n + m, w, through.trans run, last⟩

theorem runs_to_expand (registry : Registry σ) (templates : TemplateSet)
    (tables : List Toml.Table) :
    ∃ n w, Runs registry templates (begin tables) n w ∧
      w.step registry templates = .ends (expand registry templates tables) := by
  cases result : expand registry templates tables with
  | ok chain =>
    have expands := expand_eq_ok_iff.1 result
    obtain ⟨n, through⟩ := runs_of_expands expands none 0 [] [] []
    have last : step registry templates _ = _ := step_of_nil []
      ⟨none, placeOf [], 0 + tables.length, []⟩ [] ([] ++ chain) rfl
    rw [List.append_nil] at through
    exact ⟨n + 1, ⟨[], [], chain⟩, through.trans (.single last), rfl⟩
  | error e =>
    have fails := expand_eq_error_iff.1 result
    exact runs_of_fails fails none [] []

theorem expand_eq_of_ends {tables : List Toml.Table} {n : Nat} {w : Walk σ}
    {result : Except BuildError (List (Resolved σ))}
    (run : Runs registry templates (begin tables) n w)
    (atEnd : w.step registry templates = .ends result) :
    expand registry templates tables = result := by
  obtain ⟨m, w', run', atEnd'⟩ := runs_to_expand registry templates tables
  obtain rfl := run.end_unique run' atEnd atEnd'
  cases atEnd.symm.trans atEnd'
  rfl

theorem expand_eq_templateCycle_iff {tables : List Toml.Table} {name : String}
    {chain : List String} :
    expand registry templates tables = .error (.templateCycle name chain) ↔
      ∃ n w, Runs registry templates (begin tables) n w ∧ w.ComesTo registry templates name ∧
        name ∈ w.stack ∧ chain = w.stack ++ [name] := by
  constructor
  · intro h
    obtain ⟨n, w, run, atEnd⟩ := runs_to_expand registry templates tables
    rw [h] at atEnd
    exact ⟨n, w, run, (comesTo_of_step_eq atEnd).1 name chain rfl⟩
  · rintro ⟨n, w, run, comes, around, rfl⟩
    exact expand_eq_of_ends run (comes.step_eq.1 around)

theorem expand_eq_tooDeep_iff {tables : List Toml.Table} {chain : List String} :
    expand registry templates tables = .error (.tooDeep chain) ↔
      ∃ n w name, Runs registry templates (begin tables) n w ∧ w.ComesTo registry templates name ∧
        name ∉ w.stack ∧ w.stack.length = maxTemplateDepth ∧ chain = w.stack ++ [name] := by
  constructor
  · intro h
    obtain ⟨n, w, run, atEnd⟩ := runs_to_expand registry templates tables
    rw [h] at atEnd
    obtain ⟨name, comes, fresh, full, rfl⟩ := (comesTo_of_step_eq atEnd).2 chain rfl
    have bounded := (run.stacked (stacked_begin tables)).bounded
    exact ⟨n, w, name, run, comes, fresh, Nat.le_antisymm bounded full, rfl⟩
  · rintro ⟨n, w, name, run, comes, fresh, full, rfl⟩
    exact expand_eq_of_ends run (comes.step_eq.2 fresh (Nat.le_of_eq full.symm))

end Walk

/-! ### Templates within templates -/

/-- Templates that are nested in one another somewhere in the tables, the outermost first, whatever the
tables before and behind them are. The last one need not be filled. -/
inductive Nested (registry : Registry σ) (templates : TemplateSet) :
    List Toml.Table → List String → Prop
  | here {tables : List Toml.Table} {table : Toml.Table} {typeName localId : String} {t : Template}
      (listed : table ∈ tables) (stands : StandsFor registry templates table typeName localId t) :
      Nested registry templates tables [typeName]
  | inside {tables inner : List Toml.Table} {table : Toml.Table} {typeName localId : String}
      {t : Template} {names : List String} (listed : table ∈ tables)
      (stands : StandsFor registry templates table typeName localId t)
      (filled : t.instantiate (settingsOf table) = .ok inner)
      (deeper : Nested registry templates inner names) :
      Nested registry templates tables (typeName :: names)

theorem Nested.of_subset {tables more : List Toml.Table} {names : List String}
    (h : Nested registry templates tables names) (sub : tables ⊆ more) :
    Nested registry templates more names := by
  cases h with
  | here listed stands => exact .here (sub listed) stands
  | inside listed stands filled deeper => exact .inside (sub listed) stands filled deeper

theorem Nested.exists_standsFor {tables : List Toml.Table} {names : List String}
    (h : Nested registry templates tables names) :
    ∃ table ∈ tables, ∃ typeName localId t,
      StandsFor registry templates table typeName localId t := by
  cases h with
  | here listed stands => exact ⟨_, listed, _, _, _, stands⟩
  | inside listed stands filled deeper => exact ⟨_, listed, _, _, _, stands⟩

/-- A fault of nesting names the templates of the stack, and those nested in one another from there on. -/
theorem Fails.nested {path stack : List String} {index : Nat} {tables : List Toml.Table}
    {e : BuildError} (h : Fails registry templates path stack index tables e) {chain : List String}
    (nesting : (∃ name, e = .templateCycle name chain) ∨ e = .tooDeep chain) :
    ∃ names, chain = stack ++ names ∧ Nested registry templates tables names := by
  induction h with
  | @here path stack index table e rest fault =>
    cases fault with
    | misread wrong => cases wrong <;> simp at nesting
    | unknownType heading unregistered unfound => simp at nesting
    | @cycle typeName localId t stands around =>
      obtain rfl : stack ++ [typeName] = chain := by simpa using nesting
      exact ⟨[typeName], rfl, .here List.mem_cons_self stands⟩
    | @tooDeep typeName localId t stands fresh full =>
      obtain rfl : stack ++ [typeName] = chain := by simpa using nesting
      exact ⟨[typeName], rfl, .here List.mem_cons_self stands⟩
    | missingParameter stands fresh room unfilled => simp at nesting
    | unknownParameter stands fresh room unfilled => simp at nesting
  | @inside path stack index table tables typeName localId t e rest stands fresh room filled within
      ih =>
    obtain ⟨names, rfl, deeper⟩ := ih nesting
    exact ⟨typeName :: names, by simp, .inside List.mem_cons_self stands filled deeper⟩
  | @behind path stack index table rest front e first later ih =>
    obtain ⟨names, rfl, nested⟩ := ih nesting
    exact ⟨names, rfl, nested.of_subset (List.subset_cons_self table rest)⟩

/-- A fault of nesting, with the templates that it names. -/
def NestingFault (chain : List String) (e : BuildError) : Prop :=
  (∃ name, e = .templateCycle name chain) ∨ e = .tooDeep chain

theorem buildPipeline_eq_error_iff_of_nesting {tables : List Toml.Table} {chain : List String}
    {e : BuildError} (nesting : NestingFault chain e) :
    buildPipeline registry templates tables = .error e ↔
      expand registry templates tables = .error e := by
  rw [buildPipeline_eq_error_iff, expand_eq_error_iff, or_iff_left]
  rintro ⟨resolved, -, malformed | ⟨-, r, cause, -, -, rfl⟩⟩
  · cases malformed <;> simp [NestingFault, misplacement] at nesting
  · simp [NestingFault] at nesting

/-! ### The faults of a pipeline -/

variable {tables : List Toml.Table}

theorem buildPipeline_eq_templateCycle_iff {name : String} {chain : List String} :
    buildPipeline registry templates tables = .error (.templateCycle name chain) ↔
      ∃ n w, Walk.Runs registry templates (Walk.begin tables) n w ∧
        w.ComesTo registry templates name ∧ name ∈ w.stack ∧ chain = w.stack ++ [name] := by
  have nesting : NestingFault chain (.templateCycle name chain) := .inl ⟨name, rfl⟩
  rw [buildPipeline_eq_error_iff_of_nesting nesting]
  exact Walk.expand_eq_templateCycle_iff

theorem buildPipeline_eq_tooDeep_iff {chain : List String} :
    buildPipeline registry templates tables = .error (.tooDeep chain) ↔
      ∃ n w name, Walk.Runs registry templates (Walk.begin tables) n w ∧
        w.ComesTo registry templates name ∧ name ∉ w.stack ∧ w.stack.length = maxTemplateDepth ∧
        chain = w.stack ++ [name] := by
  rw [buildPipeline_eq_error_iff_of_nesting (.inr rfl)]
  exact Walk.expand_eq_tooDeep_iff

theorem chain_of_tooDeep {chain : List String}
    (built : buildPipeline registry templates tables = .error (.tooDeep chain)) :
    chain.length = maxTemplateDepth + 1 ∧ chain.Nodup := by
  obtain ⟨n, w, name, run, -, fresh, full, rfl⟩ := buildPipeline_eq_tooDeep_iff.1 built
  have distinct := (run.stacked (Walk.stacked_begin tables)).distinct
  have apart : ∀ a ∈ w.stack, a ≠ name := by
    rintro a ha rfl
    exact fresh ha
  refine ⟨by simp [full], ?_⟩
  simpa [List.nodup_append] using And.intro distinct apart

theorem nested_of_nestingFault {chain : List String} {e : BuildError}
    (nesting : NestingFault chain e) (built : buildPipeline registry templates tables = .error e) :
    Nested registry templates tables chain := by
  have fails := expand_eq_error_iff.1 ((buildPipeline_eq_error_iff_of_nesting nesting).1 built)
  obtain ⟨names, rfl, nested⟩ := fails.nested nesting
  exact nested

/-- Where no template is nested in itself, nor too many in one another, nesting is no fault. -/
theorem buildPipeline_ne_of_shallow
    (shallow : ∀ names, Nested registry templates tables names →
      names.Nodup ∧ names.length ≤ maxTemplateDepth)
    {chain : List String} {e : BuildError} (nesting : NestingFault chain e) :
    buildPipeline registry templates tables ≠ .error e := by
  intro built
  obtain ⟨once, few⟩ := shallow chain (nested_of_nestingFault nesting built)
  obtain ⟨name, rfl⟩ | rfl := nesting
  · obtain ⟨n, w, -, -, around, rfl⟩ := buildPipeline_eq_templateCycle_iff.1 built
    exact (List.nodup_append.1 once).2.2 name around name (List.mem_singleton_self name) rfl
  · have long := (chain_of_tooDeep built).1
    omega

end LogIntake.Build

namespace LogIntake

open Build

/-- The expansion comes to an end, whatever the templates: no walk through the tables is longer than the
one that ends with its result. All the time the stack holds the names of the templates whose tables are
under way, the outermost first, each of them once and at most sixteen. A cycle is reported exactly where
the walk comes to a template that is on the stack, and templates that nest too deep exactly where it comes
to a seventeenth that is not; either fault names the stack and that template, which are nested in one
another in the tables. So tables in which no template is nested in itself, nor more than sixteen in one
another, have neither fault, however often they name a template elsewhere. -/
theorem template_nesting {σ : Type} (registry : Registry σ) (templates : TemplateSet)
    (tables : List Toml.Table) :
    (∃ n w, Walk.Runs registry templates (Walk.begin tables) n w ∧
      w.step registry templates = .ends (expand registry templates tables) ∧
      ∀ m w', Walk.Runs registry templates (Walk.begin tables) m w' → m ≤ n) ∧
    (∀ n (w : Walk σ), Walk.Runs registry templates (Walk.begin tables) n w →
      w.stack = w.rows.reverse.filterMap Row.template ∧ w.stack.Nodup ∧ w.stack.length ≤ 16) ∧
    (∀ name chain, buildPipeline registry templates tables = .error (.templateCycle name chain) ↔
      ∃ n w, Walk.Runs registry templates (Walk.begin tables) n w ∧
        w.ComesTo registry templates name ∧ name ∈ w.stack ∧ chain = w.stack ++ [name]) ∧
    (∀ chain, buildPipeline registry templates tables = .error (.tooDeep chain) ↔
      ∃ n w name, Walk.Runs registry templates (Walk.begin tables) n w ∧
        w.ComesTo registry templates name ∧ name ∉ w.stack ∧ w.stack.length = 16 ∧
        chain = w.stack ++ [name]) ∧
    (∀ chain, buildPipeline registry templates tables = .error (.tooDeep chain) →
      chain.length = 17 ∧ chain.Nodup) ∧
    (∀ chain e, NestingFault chain e → buildPipeline registry templates tables = .error e →
      Nested registry templates tables chain) ∧
    ((∀ names, Nested registry templates tables names → names.Nodup ∧ names.length ≤ 16) →
      ∀ chain e, NestingFault chain e → buildPipeline registry templates tables ≠ .error e) := by
  refine ⟨?_, fun n w run => ?_, fun _ _ => buildPipeline_eq_templateCycle_iff,
    fun _ => buildPipeline_eq_tooDeep_iff, fun _ => chain_of_tooDeep,
    fun _ _ => nested_of_nestingFault, fun shallow _ _ => buildPipeline_ne_of_shallow shallow⟩
  · obtain ⟨n, w, run, atEnd⟩ := Walk.runs_to_expand registry templates tables
    exact ⟨n, w, run, atEnd, fun m w' run' => run.length_le atEnd run'⟩
  · have stacked := run.stacked (Walk.stacked_begin tables)
    exact ⟨stacked.stack_eq, stacked.distinct, stacked.bounded⟩

def plainType : OperatorType Unit := ⟨"plain", .intermediate, fun _ _ => .ok ()⟩

/-- A template whose one table has the type that is given, which is passed on. -/
def echoTemplate : Template where
  name := "echo"
  version := none
  description := none
  source := "echo.toml"
  required := ["next"]
  optional := []
  pipeline := [[("type", .leaf (.pattern [.parameter "next"])),
    ("next", .leaf (.pattern [.parameter "next"]))]]

def echoTable (id next : String) : Toml.Table :=
  [("type", .leaf (.string "echo")), ("id", .leaf (.string id)), ("next", .leaf (.string next))]

theorem nested_echo {names : List String}
    (h : Nested (.ofTypes [plainType]) (.ofList [("echo", echoTemplate)])
      [echoTable "a" "plain", echoTable "b" "plain"] names) : names = ["echo"] := by
  have named : ∀ table ∈ [echoTable "a" "plain", echoTable "b" "plain"],
      Toml.Entries.get? "type" table = some (.leaf (.string "echo")) ∧
        echoTemplate.instantiate (settingsOf table) =
          .ok [[("type", .leaf (.string "plain")), ("next", .leaf (.string "plain"))]] := by
    simp only [List.forall_mem_cons]
    exact ⟨⟨rfl, rfl⟩, ⟨rfl, rfl⟩, by simp⟩
  cases h with
  | @here _ table typeName localId t listed stands =>
    obtain ⟨type, -⟩ := named table listed
    cases type.symm.trans stands.named
    rfl
  | @inside _ inner table typeName localId t names listed stands filled deeper =>
    obtain ⟨type, plain⟩ := named table listed
    cases type.symm.trans stands.named
    obtain rfl : echoTemplate = t := Option.some.inj stands.found
    cases plain.symm.trans filled
    obtain ⟨other, listed', _, _, _, stands'⟩ := deeper.exists_standsFor
    obtain rfl := List.mem_singleton.1 listed'
    cases stands'.named
    cases stands'.unregistered

theorem echo_template_nesting :
    (∃ n w, Walk.Runs (.ofTypes [plainType]) (.ofList [("echo", echoTemplate)])
        (Walk.begin [echoTable "a" "echo"]) n w ∧ "echo" ∈ w.stack ∧
        ["echo", "echo"] = w.stack ++ ["echo"]) ∧
      (∀ names, Nested (.ofTypes [plainType]) (.ofList [("echo", echoTemplate)])
        [echoTable "a" "plain", echoTable "b" "plain"] names → names.Nodup ∧ names.length ≤ 16) ∧
      ∀ chain e, NestingFault chain e →
        buildPipeline (.ofTypes [plainType]) (.ofList [("echo", echoTemplate)])
          [echoTable "a" "plain", echoTable "b" "plain"] ≠ .error e := by
  have itself : buildPipeline (.ofTypes [plainType]) (.ofList [("echo", echoTemplate)])
      [echoTable "a" "echo"] = .error (.templateCycle "echo" ["echo", "echo"]) := rfl
  have beside : ∀ names, Nested (.ofTypes [plainType]) (.ofList [("echo", echoTemplate)])
      [echoTable "a" "plain", echoTable "b" "plain"] names → names.Nodup ∧ names.length ≤ 16 := by
    intro names h
    rw [nested_echo h]
    decide
  obtain ⟨-, -, cycle, -⟩ := template_nesting (.ofTypes [plainType])
    (.ofList [("echo", echoTemplate)]) [echoTable "a" "echo"]
  obtain ⟨n, w, run, -, around, chain⟩ := (cycle "echo" ["echo", "echo"]).1 itself
  obtain ⟨-, -, -, -, -, -, sound⟩ := template_nesting (.ofTypes [plainType])
    (.ofList [("echo", echoTemplate)]) [echoTable "a" "plain", echoTable "b" "plain"]
  exact ⟨⟨n, w, run, around, chain⟩, beside, sound beside⟩

end LogIntake
