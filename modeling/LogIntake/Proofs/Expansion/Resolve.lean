import LogIntake.Pipeline.Build

/-!
When the tables of a chain resolve, and to what. A table resolves on its own: its place in the row does
not matter, and neither does room that it does not need or a template around it that it does not name.
-/
namespace LogIntake.Build

variable {σ : Type} {registry : Registry σ} {templates : TemplateSet}

theorem textOf_eq_ok_iff {key : String} {index : Nat} {place : Option String} {v : Toml.Value}
    {s : String} : textOf key index place v = .ok s ↔ v = .leaf (.string s) := by
  cases v with
  | leaf a => cases a <;> simp [textOf]
  | array items => simp [textOf]
  | table entries => simp [textOf]

def LocalId (table : Toml.Table) (localId : String) : Prop :=
  Toml.Entries.get? "id" table = some (.leaf (.string localId)) ∨
    Toml.Entries.get? "id" table = none ∧
      Toml.Entries.get? "type" table = some (.leaf (.string localId))

def settingsOf (table : Toml.Table) : Toml.Table :=
  Toml.Entries.erase "id" (Toml.Entries.erase "type" table)

theorem head_eq_ok_iff {index : Nat} {place : Option String} {table : Toml.Table} {h : Head} :
    head index place table = .ok h ↔
      Toml.Entries.get? "type" table = some (.leaf (.string h.typeName)) ∧
        LocalId table h.localId ∧ h.settings = settingsOf table := by
  have hid : Toml.Entries.get? "id" (Toml.Entries.erase "type" table) =
      Toml.Entries.get? "id" table := Toml.Entries.get?_erase_of_ne (by decide) table
  obtain ⟨typeName, localId, settings⟩ := h
  cases ht : Toml.Entries.get? "type" table with
  | none => simp [head, ht]
  | some v =>
    simp only [head, ht, bind_eq_ok_iff, textOf_eq_ok_iff, Option.some.injEq, hid, LocalId,
      settingsOf]
    cases hi : Toml.Entries.get? "id" table with
    | none =>
      have he := Toml.Entries.erase_of_get?_eq_none (hid.trans hi)
      rw [he]
      constructor
      · rintro ⟨s, rfl, hs⟩
        cases hs
        simp
      · rintro ⟨rfl, h, rfl⟩
        simpa using h
    | some w =>
      simp only [bind_eq_ok_iff, textOf_eq_ok_iff]
      constructor
      · rintro ⟨s, rfl, t, rfl, hs⟩
        cases hs
        simp
      · rintro ⟨rfl, h, rfl⟩
        simpa using h

/-- What a table resolves to, where `descend` resolves the tables of a template. -/
inductive Resolves (registry : Registry σ) (templates : TemplateSet) (place : Option String)
    (stack : List String) (table : Toml.Table) : Option (Descend σ) → List (Resolved σ) → Prop
  | operator {descend : Option (Descend σ)} {typeName localId : String} {type : OperatorType σ}
      (named : Toml.Entries.get? "type" table = some (.leaf (.string typeName)))
      (called : LocalId table localId) (registered : registry.get? typeName = some type) :
      Resolves registry templates place stack table descend
        [⟨fullId place localId, type, settingsOf table⟩]
  | template {descend : Descend σ} {typeName localId : String} {t : Template}
      {tables : List Toml.Table} {chain : List (Resolved σ)}
      (named : Toml.Entries.get? "type" table = some (.leaf (.string typeName)))
      (called : LocalId table localId) (unregistered : registry.get? typeName = none)
      (found : templates.get? typeName = some t) (fresh : typeName ∉ stack)
      (filled : t.instantiate (settingsOf table) = .ok tables)
      (resolved : descend (some (fullId place localId)) (stack ++ [typeName]) tables = .ok chain) :
      Resolves registry templates place stack table (some descend) chain

theorem resolveOne_eq_ok_iff {descend : Option (Descend σ)} {place : Option String}
    {stack : List String} {index : Nat} {table : Toml.Table} {chain : List (Resolved σ)} :
    resolveOne registry templates descend place stack index table = .ok chain ↔
      Resolves registry templates place stack table descend chain := by
  constructor
  · intro h
    obtain ⟨⟨typeName, localId, settings⟩, hh, h⟩ := bind_eq_ok_iff.1 h
    obtain ⟨named, called, rfl⟩ := head_eq_ok_iff.1 hh
    simp only at h called
    split at h
    · next type registered =>
      obtain rfl := Except.ok.inj h
      exact .operator named called registered
    · next unregistered =>
      split at h
      · simp at h
      · next t found =>
        split at h
        · simp at h
        · next fresh =>
          split at h
          · simp at h
          · split at h
            · simp at h
            · simp at h
            · next tables filled =>
              exact .template named called unregistered found (by simpa using fresh) filled h
  · intro h
    cases h with
    | @operator _ typeName localId type named called registered =>
      have hh : head index place table = .ok ⟨typeName, localId, settingsOf table⟩ :=
        head_eq_ok_iff.2 ⟨named, called, rfl⟩
      refine bind_eq_ok_iff.2 ⟨_, hh, ?_⟩
      simp only [registered]
    | @template descend typeName localId t tables _ named called unregistered found fresh filled
        resolved =>
      have hh : head index place table = .ok ⟨typeName, localId, settingsOf table⟩ :=
        head_eq_ok_iff.2 ⟨named, called, rfl⟩
      refine bind_eq_ok_iff.2 ⟨_, hh, ?_⟩
      have hc : stack.contains typeName = false := by simpa using fresh
      simp only [unregistered, found, hc, filled, resolved, Bool.false_eq_true, if_false]

/-! ### Rows of tables -/

theorem resolveEach_cons_eq_ok_iff {one : Nat → Toml.Table → Except BuildError (List (Resolved σ))}
    {index : Nat} {table : Toml.Table} {rest : List Toml.Table} {chain : List (Resolved σ)} :
    resolveEach one index (table :: rest) = .ok chain ↔
      ∃ front back, one index table = .ok front ∧ resolveEach one (index + 1) rest = .ok back ∧
        chain = front ++ back := by
  simp only [resolveEach, bind_eq_ok_iff, Except.ok.injEq]
  constructor
  · rintro ⟨front, hf, back, hb, rfl⟩
    exact ⟨front, back, hf, hb, rfl⟩
  · rintro ⟨front, back, hf, hb, rfl⟩
    exact ⟨front, hf, back, hb, rfl⟩

theorem resolveEach_append_eq_ok_iff
    {one : Nat → Toml.Table → Except BuildError (List (Resolved σ))} {index : Nat}
    {front back : List Toml.Table} {chain : List (Resolved σ)} :
    resolveEach one index (front ++ back) = .ok chain ↔
      ∃ a b, resolveEach one index front = .ok a ∧
        resolveEach one (index + front.length) back = .ok b ∧ chain = a ++ b := by
  induction front generalizing index chain with
  | nil => simp [resolveEach]
  | cons table rest ih =>
    rw [List.cons_append, resolveEach_cons_eq_ok_iff]
    have hi : index + (table :: rest).length = index + 1 + rest.length := by
      rw [List.length_cons]
      omega
    constructor
    · rintro ⟨a, b, ha, hb, rfl⟩
      obtain ⟨c, d, hc, hd, rfl⟩ := ih.1 hb
      refine ⟨a ++ c, d, resolveEach_cons_eq_ok_iff.2 ⟨a, c, ha, hc, rfl⟩, ?_, ?_⟩
      · rw [hi]
        exact hd
      · rw [List.append_assoc]
    · rintro ⟨a, d, ha, hd, rfl⟩
      obtain ⟨b, c, hb, hc, rfl⟩ := resolveEach_cons_eq_ok_iff.1 ha
      rw [hi] at hd
      exact ⟨b, c ++ d, hb, ih.2 ⟨c, d, hc, hd, rfl⟩, List.append_assoc b c d⟩

/-- A row resolves as well if each of its tables does under another function, wherever it stands. -/
theorem resolveEach_map_eq_ok {one other : Nat → Toml.Table → Except BuildError (List (Resolved σ))}
    {change : Toml.Table → Toml.Table} {tables : List Toml.Table}
    (h : ∀ i j table chain, table ∈ tables → one i table = .ok chain →
      other j (change table) = .ok chain) {i : Nat} (j : Nat) {chain : List (Resolved σ)}
    (hr : resolveEach one i tables = .ok chain) :
    resolveEach other j (tables.map change) = .ok chain := by
  induction tables generalizing i j chain with
  | nil => exact hr
  | cons table rest ih =>
    obtain ⟨a, b, ha, hb, rfl⟩ := resolveEach_cons_eq_ok_iff.1 hr
    have hrest := ih (fun i j t c ht => h i j t c (List.mem_cons_of_mem table ht)) (j + 1) hb
    exact resolveEach_cons_eq_ok_iff.2 ⟨a, b, h i j table a List.mem_cons_self ha, hrest, rfl⟩

/-! ### More room, and fewer templates around -/

def Wider (wide narrow : Option (Descend σ)) : Prop :=
  ∀ descend, narrow = some descend → ∃ wider, wide = some wider ∧
    ∀ place stack stack' tables chain, (∀ name ∈ stack', name ∈ stack) →
      descend place stack tables = .ok chain → wider place stack' tables = .ok chain

theorem Resolves.widen {descend wider : Option (Descend σ)} {place : Option String}
    {stack stack' : List String} {table : Toml.Table} {chain : List (Resolved σ)}
    (hw : Wider wider descend) (hs : ∀ name ∈ stack', name ∈ stack)
    (h : Resolves registry templates place stack table descend chain) :
    Resolves registry templates place stack' table wider chain := by
  cases h with
  | operator named called registered => exact .operator named called registered
  | @template descend typeName _ _ _ _ named called unregistered found fresh filled resolved =>
    obtain ⟨w, rfl, hd⟩ := hw descend rfl
    have hsub : ∀ name ∈ stack' ++ [typeName], name ∈ stack ++ [typeName] := by
      intro name hn
      rcases List.mem_append.1 hn with hn | hn
      · exact List.mem_append_left _ (hs name hn)
      · exact List.mem_append_right _ hn
    exact .template named called unregistered found (fun hm => fresh (hs _ hm)) filled
      (hd _ _ _ _ _ hsub resolved)

def below (registry : Registry σ) (templates : TemplateSet) : Nat → Option (Descend σ)
  | 0 => none
  | room + 1 => some (resolveAll registry templates room)

theorem resolveAll_eq (room : Nat) (place : Option String) (stack : List String)
    (tables : List Toml.Table) : resolveAll registry templates room place stack tables =
      resolveEach (resolveOne registry templates (below registry templates room) place stack) 0
        tables := by
  cases room <;> rfl

theorem wider_below {room room' : Nat} (h : room ≤ room') :
    Wider (below registry templates room') (below registry templates room) := by
  induction room generalizing room' with
  | zero => simp [Wider, below]
  | succ room ih =>
    obtain ⟨room', rfl⟩ : ∃ n, room' = n + 1 := ⟨room' - 1, by omega⟩
    have hle : room ≤ room' := by omega
    intro descend hd
    obtain rfl := Option.some.inj hd
    refine ⟨_, rfl, ?_⟩
    intro place stack stack' tables chain hs hr
    rw [resolveAll_eq] at hr ⊢
    have hone : ∀ i j table chain, table ∈ tables →
        resolveOne registry templates (below registry templates room) place stack i table =
          .ok chain →
        resolveOne registry templates (below registry templates room') place stack' j
          (id table) = .ok chain := by
      intro i j table chain _ ho
      exact resolveOne_eq_ok_iff.2 ((resolveOne_eq_ok_iff.1 ho).widen (ih hle) hs)
    simpa using resolveEach_map_eq_ok hone 0 hr

end LogIntake.Build
