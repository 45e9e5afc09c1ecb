import LogIntake.Operator.Builtin
import LogIntake.Proofs.Expansion.Building
import Mathlib

/-!
Which parameters reach a template. A table gives the template that it names all its entries but the type
and the id, and a template may declare parameters of these names all the same. No table can give those.
-/
namespace LogIntake

/-! ### Templates -/

namespace Template

theorem smallest?_eq_none_iff {names : List String} : smallest? names = none ↔ names = [] := by
  cases names with
  | nil => simp [smallest?]
  | cons name rest =>
    cases h : smallest? rest <;> simp [smallest?, h]

theorem undeclared?_eq_none_iff {t : Template} :
    t.undeclared? = none ↔ ∀ name ∈ t.parameters, t.isDeclared name = true := by
  simp [undeclared?, smallest?_eq_none_iff]

/-- What a file says that a template was made from. -/
structure Source.Makes (file : Source) (defaultName : String) (t : Template) : Prop where
  name : t.name = file.name.getD defaultName
  required : t.required = file.required
  optional : t.optional = file.optional
  pipeline : file.pipeline.mapM (Toml.mapEntriesM? Leaf.ofScalar) = .ok t.pipeline
  declared : t.undeclared? = none

def Source.read (text : String) : Except TomlError Source :=
  decodeToml (Toml.decodeRecord "TemplateFile" Source.fields {} .text) text

theorem exists_makes_of_parse {text defaultName source : String} {t : Template}
    (parsed : parse text defaultName source = .ok t) :
    ∃ file, Source.read text = .ok file ∧ file.Makes defaultName t := by
  obtain ⟨file, decoded, checked⟩ := bind_eq_ok_iff.1 parsed
  refine ⟨file, mapError_eq_ok_iff.1 decoded, ?_⟩
  simp only [ofSource] at checked
  split at checked
  · cases checked
  · split at checked
    · cases checked
    · obtain ⟨pipeline, tables, made⟩ := bind_eq_ok_iff.1 checked
      split at made
      · cases made
      · next declared =>
        cases made
        exact ⟨rfl, rfl, rfl, mapError_eq_ok_iff.1 tables, declared⟩

/-- A template that was read declares all its placeholders. -/
theorem isDeclared_of_parse {text defaultName source : String} {t : Template}
    (parsed : parse text defaultName source = .ok t) :
    ∀ name ∈ t.parameters, t.isDeclared name = true := by
  obtain ⟨file, -, makes⟩ := exists_makes_of_parse parsed
  exact undeclared?_eq_none_iff.1 makes.declared

theorem instantiate_eq_ok {t : Template} {given : Toml.Table}
    (required : ∀ name ∈ t.required, name ∈ Toml.Entries.keys given)
    (declared : ∀ key ∈ Toml.Entries.keys given, t.isDeclared key = true) :
    t.instantiate given = .ok (t.pipeline.map (Toml.bindEntries (Leaf.fill (t.valueOf given)))) := by
  have noneMissing : t.required.find? (fun name => !Toml.Entries.has name given) = none := by
    simpa [Toml.Entries.has_iff] using required
  have noneUnknown : (Toml.Entries.keys given).find? (fun name => !t.isDeclared name) = none := by
    simpa using declared
  simp only [instantiate, noneMissing, noneUnknown]

theorem instantiate_eq_missing_iff {t : Template} {given : Toml.Table} {name : String} :
    t.instantiate given = .error (.missingParameter name) ↔
      t.required.find? (fun name => !Toml.Entries.has name given) = some name := by
  rw [instantiate]
  split
  · next missing first => simp [first]
  · next noneMissing =>
    rw [noneMissing]
    split <;> simp

end Template

namespace Build

variable {σ : Type} {registry : Registry σ} {templates : TemplateSet}

/-! ### What a table gives to its template -/

/-- The keys of a table that it does not give to the template that it names. -/
def Reserved (key : String) : Prop := key = "type" ∨ key = "id"

instance (key : String) : Decidable (Reserved key) := inferInstanceAs (Decidable (_ ∨ _))

theorem mem_keys_settingsOf {table : Toml.Table} (distinct : (Toml.Entries.keys table).Nodup)
    {key : String} : key ∈ Toml.Entries.keys (settingsOf table) ↔
      ¬ Reserved key ∧ key ∈ Toml.Entries.keys table := by
  have without : ((Toml.Entries.keys table).erase "type").Nodup := distinct.erase "type"
  rw [settingsOf, Toml.Entries.keys_erase, Toml.Entries.keys_erase, without.mem_erase_iff,
    distinct.mem_erase_iff, Reserved]
  tauto

theorem get?_settingsOf {table : Toml.Table} (distinct : (Toml.Entries.keys table).Nodup)
    (key : String) : Toml.Entries.get? key (settingsOf table) =
      if Reserved key then none else Toml.Entries.get? key table := by
  split
  · next reserved =>
    rw [Toml.Entries.get?_eq_none_iff, mem_keys_settingsOf distinct]
    simp [reserved]
  · next given =>
    simp only [Reserved, not_or] at given
    rw [settingsOf, Toml.Entries.get?_erase_of_ne given.2, Toml.Entries.get?_erase_of_ne given.1]

/-- The value of a placeholder: what the table says, else the default; and always the default where the
name is reserved. -/
def supplied (t : Template) (table : Toml.Table) (name : String) : Option Toml.Value :=
  if Reserved name then Toml.Entries.get? name t.optional
  else (Toml.Entries.get? name table).or (Toml.Entries.get? name t.optional)

theorem valueOf_settingsOf {table : Toml.Table} (distinct : (Toml.Entries.keys table).Nodup)
    (t : Template) : t.valueOf (settingsOf table) = supplied t table := by
  funext name
  rw [Template.valueOf, get?_settingsOf distinct, supplied]
  split <;> simp

/-! ### Which table is at fault -/

/-- A fault with a parameter names the operator whose template lacks it or does not know it. -/
inductive ParameterFault (id typeName : String) : BuildError → Prop
  | missing (name : String) : ParameterFault id typeName (.missingParameter id typeName name)
  | unknown (name : String) : ParameterFault id typeName (.unknownParameter id typeName name)

theorem Fails.cons_iff {path stack : List String} {index : Nat} {table : Toml.Table}
    {rest : List Toml.Table} {e : BuildError} :
    Fails registry templates path stack index (table :: rest) e ↔
      Fails registry templates path stack index [table] e ∨
        ∃ front, Expands registry templates path stack [table] front ∧
          Fails registry templates path stack (index + 1) rest e := by
  constructor
  · intro h
    cases h with
    | here _ fault => exact .inl (.here [] fault)
    | inside _ stands fresh room filled within =>
      exact .inl (.inside [] stands fresh room filled within)
    | behind first later => exact .inr ⟨_, first, later⟩
  · rintro (first | ⟨front, first, later⟩)
    · exact first.row rest
    · exact .behind first later

theorem Expands.of_cons {path stack : List String} {table : Toml.Table} {rest : List Toml.Table}
    {chain : List (Resolved σ)} (h : Expands registry templates path stack (table :: rest) chain) :
    ∃ front back, Expands registry templates path stack [table] front ∧
      Expands registry templates path stack rest back := by
  cases h with
  | operator heading registered behind =>
    exact ⟨_, _, .operator heading registered (.nil path stack), behind⟩
  | template stands fresh room filled inside behind =>
    exact ⟨_, _, .template stands fresh room filled inside (.nil path stack), behind⟩

theorem Fails.append_iff {path stack : List String} {index : Nat} {tables more : List Toml.Table}
    {e : BuildError} :
    Fails registry templates path stack index (tables ++ more) e ↔
      Fails registry templates path stack index tables e ∨
        ∃ front, Expands registry templates path stack tables front ∧
          Fails registry templates path stack (index + tables.length) more e := by
  induction tables generalizing index with
  | nil =>
    constructor
    · intro h
      exact .inr ⟨[], .nil path stack, h⟩
    · rintro (h | ⟨_, -, h⟩)
      · cases h
      · exact h
  | cons table rest ih =>
    have next : index + (table :: rest).length = index + 1 + rest.length := by
      rw [List.length_cons]
      omega
    rw [List.cons_append, Fails.cons_iff, ih, next]
    constructor
    · rintro (h | ⟨front, first, h | ⟨back, behind, h⟩⟩)
      · exact .inl (h.row rest)
      · exact .inl (.behind first h)
      · exact .inr ⟨_, first.append behind, h⟩
    · rintro (h | ⟨_, expands, h⟩)
      · obtain h | ⟨front, first, h⟩ := Fails.cons_iff.1 h
        · exact .inl h
        · exact .inr ⟨front, first, .inl h⟩
      · obtain ⟨front, back, first, behind⟩ := expands.of_cons
        exact .inr ⟨front, first, .inr ⟨back, behind, h⟩⟩

/-- A fault with a parameter is that of an operator of the row, or of one below it. -/
theorem Fails.id_eq {path stack : List String} {index : Nat} {tables : List Toml.Table}
    {e : BuildError} (h : Fails registry templates path stack index tables e) {id typeName : String}
    (about : ParameterFault id typeName e) : ∃ below, below ≠ [] ∧ id = pathId (path ++ below) := by
  induction h with
  | here rest fault =>
    cases fault with
    | misread wrong => cases wrong <;> cases about
    | unknownType | cycle | tooDeep => cases about
    | @missingParameter _ localId =>
      cases about
      exact ⟨[localId], by simp, rfl⟩
    | @unknownParameter _ localId =>
      cases about
      exact ⟨[localId], by simp, rfl⟩
  | @inside path stack index table tables typeName localId t e rest stands fresh room filled within ih =>
    obtain ⟨below, -, hid⟩ := ih about
    exact ⟨localId :: below, by simp, by simpa using hid⟩
  | behind first later ih => exact ih about

theorem pathId_cons_ne {localId : String} {below : List String} (h : below ≠ []) :
    pathId (localId :: below) ≠ localId := by
  intro same
  have longer := congrArg String.length same
  rw [pathId, String.intercalate_cons_of_ne_nil h, String.length_append, String.length_append] at longer
  have dot : ".".length = 1 := by decide
  omega

theorem LocalId.unique {table : Toml.Table} {localId localId' : String} (h : LocalId table localId)
    (k : LocalId table localId') : localId' = localId := by
  rcases h with h | ⟨h, ht⟩ <;> rcases k with k | ⟨k, kt⟩ <;> simp_all

theorem StandsFor.unique {table : Toml.Table} {typeName typeName' localId localId' : String}
    {t t' : Template} (h : StandsFor registry templates table typeName localId t)
    (k : StandsFor registry templates table typeName' localId' t') :
    typeName' = typeName ∧ localId' = localId ∧ t' = t := by
  have sameName : typeName' = typeName := by simpa [h.named] using k.named.symm
  subst sameName
  exact ⟨rfl, h.called.unique k.called, by simpa [h.found] using k.found.symm⟩

/-- A table whose template can be filled is not at fault with a parameter. -/
theorem StandsFor.no_parameterFault {table : Toml.Table} {tables : List Toml.Table}
    {typeName localId : String} {t : Template}
    (stands : StandsFor registry templates table typeName localId t)
    (filled : t.instantiate (settingsOf table) = .ok tables) {path stack : List String} {index : Nat}
    {e : BuildError} (h : Fault registry templates path stack index table e) (id name : String) :
    ¬ ParameterFault id name e := by
  intro about
  cases h with
  | misread wrong => cases wrong <;> cases about
  | unknownType | cycle | tooDeep => cases about
  | missingParameter stands' _ _ unfilled | unknownParameter stands' _ _ unfilled =>
    obtain ⟨rfl, rfl, rfl⟩ := stands.unique stands'
    cases filled.symm.trans unfilled

/-- Nor do the tables of its template have a fault that names its operator. -/
theorem StandsFor.not_fails {table : Toml.Table} {tables : List Toml.Table} {typeName localId : String}
    {t : Template} (stands : StandsFor registry templates table typeName localId t)
    (filled : t.instantiate (settingsOf table) = .ok tables) {stack : List String} {index : Nat}
    {e : BuildError} {name : String} (about : ParameterFault localId name e) :
    ¬ Fails registry templates [] stack index [table] e := by
  intro h
  cases h with
  | here _ fault => exact stands.no_parameterFault filled fault localId name about
  | inside _ stands' _ _ _ within =>
    obtain ⟨rfl, rfl, rfl⟩ := stands.unique stands'
    obtain ⟨below, further, same⟩ := within.id_eq about
    exact pathId_cons_ne further same.symm
  | behind _ later => cases later

/-- A table says every required parameter, and nothing else but parameters, its type and its id. -/
structure Supplies (t : Template) (table : Toml.Table) : Prop where
  distinct : (Toml.Entries.keys table).Nodup
  required : ∀ name ∈ t.required, name ∈ Toml.Entries.keys table
  declared : ∀ key ∈ Toml.Entries.keys table, Reserved key ∨ t.isDeclared key = true

theorem Supplies.declared_settingsOf {t : Template} {table : Toml.Table} (h : Supplies t table) :
    ∀ key ∈ Toml.Entries.keys (settingsOf table), t.isDeclared key = true := by
  intro key hk
  obtain ⟨free, said⟩ := (mem_keys_settingsOf h.distinct).1 hk
  exact (h.declared key said).resolve_left free

theorem Supplies.instantiate_eq {t : Template} {table : Toml.Table} (h : Supplies t table)
    (free : ∀ name ∈ t.required, ¬ Reserved name) : t.instantiate (settingsOf table) =
      .ok (t.pipeline.map (Toml.bindEntries (Template.Leaf.fill (supplied t table)))) := by
  have required : ∀ name ∈ t.required, name ∈ Toml.Entries.keys (settingsOf table) :=
    fun name hn => (mem_keys_settingsOf h.distinct).2 ⟨free name hn, h.required name hn⟩
  rw [Template.instantiate_eq_ok required h.declared_settingsOf, valueOf_settingsOf h.distinct]

/-- The first required parameter with a reserved name is missed. -/
theorem Supplies.instantiate_eq_missing {t : Template} {table : Toml.Table} (h : Supplies t table)
    {name : String} (first : t.required.find? (fun name => Reserved name) = some name) :
    t.instantiate (settingsOf table) = .error (.missingParameter name) := by
  have missed : ∀ name ∈ t.required,
      (!Toml.Entries.has name (settingsOf table)) = decide (Reserved name) := by
    intro name hn
    have said := h.required name hn
    rw [Bool.eq_iff_iff, Bool.not_eq_true', ← Bool.not_eq_true, Toml.Entries.has_iff,
      mem_keys_settingsOf h.distinct, decide_eq_true_iff]
    simp [said]
  obtain ⟨reserved, before, behind, split, free⟩ := List.find?_eq_some_iff_append.1 first
  have inside : name ∈ t.required := by simp [split]
  refine Template.instantiate_eq_missing_iff.2
    (List.find?_eq_some_iff_append.2 ⟨?_, before, behind, split, ?_⟩)
  · rw [missed name inside]
    exact reserved
  · intro other ho
    rw [missed other (by simp [split, ho])]
    exact free other ho

theorem Supplies.isSome_supplied {t : Template} {table : Toml.Table} (h : Supplies t table)
    (free : ∀ name ∈ t.required, ¬ Reserved name) {name : String} (declared : t.isDeclared name = true) :
    (supplied t table name).isSome = true := by
  rw [Template.isDeclared, Bool.or_eq_true] at declared
  rcases declared with default | required
  · rw [Toml.Entries.has] at default
    unfold supplied
    split
    · exact default
    · simp [default]
  · have hr : name ∈ t.required := by simpa using required
    have said : Toml.Entries.has name table = true := Toml.Entries.has_iff.2 (h.required name hr)
    rw [Toml.Entries.has] at said
    simp [supplied, free name hr, said]

end Build

/-- Every parameter that a table says reaches the template that the table names, if none of the required
ones is called as the keys that the table keeps to itself. The template is then filled with what the table
says, each placeholder has a value, and no fault with a parameter is ever that of the table. But a
template that requires a parameter of such a name can be read and no table can use it. -/
theorem supplied_parameters {σ : Type} {registry : Registry σ} {templates : TemplateSet}
    {c : Toml.Table} {typeName localId text defaultName source : String} {t : Template}
    (parsed : Template.parse text defaultName source = .ok t)
    (stands : Build.StandsFor registry templates c typeName localId t)
    (supplies : Build.Supplies t c) :
    ((∀ name ∈ t.required, ¬ Build.Reserved name) →
      t.instantiate (Build.settingsOf c) = .ok
        (t.pipeline.map (Toml.bindEntries (Template.Leaf.fill (Build.supplied t c)))) ∧
      (∀ name ∈ t.parameters, (Build.supplied t c name).isSome = true) ∧
      (∀ path stack index e, Build.Fault registry templates path stack index c e →
        ∀ id name, ¬ Build.ParameterFault id name e) ∧
      ∀ xs ys e, Build.ParameterFault localId typeName e →
        buildPipeline registry templates (xs ++ [c] ++ ys) = .error e →
        Build.Fails registry templates [] [] 0 xs e ∨
          ∃ chain, Build.Expands registry templates [] [] (xs ++ [c]) chain ∧
            Build.Fails registry templates [] [] (xs.length + 1) ys e) ∧
    ∀ name, t.required.find? (fun name => Build.Reserved name) = some name →
      ∀ xs ys chain, Build.Expands registry templates [] [] xs chain →
        buildPipeline registry templates (xs ++ [c] ++ ys) =
          .error (.missingParameter localId typeName name) := by
  refine ⟨fun free => ?_, ?_⟩
  · have filled := supplies.instantiate_eq free
    refine ⟨filled, fun name hn => ?_, fun _ _ _ _ => stands.no_parameterFault filled, ?_⟩
    · exact supplies.isSome_supplied free (Template.isDeclared_of_parse parsed name hn)
    · intro xs ys e about built
      obtain fails | ⟨chain, -, malformed | ⟨-, r, cause, -, -, rfl⟩⟩ :=
        Build.buildPipeline_eq_error_iff.1 built
      · obtain fails | behind := Build.Fails.append_iff.1 fails
        · obtain before | ⟨-, -, here⟩ := Build.Fails.append_iff.1 fails
          · exact .inl before
          · exact absurd here (stands.not_fails filled about)
        · simpa using Or.inr behind
      · cases malformed <;> cases about
      · cases about
  · intro name first xs ys chain expands
    have unfilled := supplies.instantiate_eq_missing first
    have fault : Build.Fault registry templates [] [] (0 + xs.length) c
        (.missingParameter localId typeName name) :=
      .missingParameter stands (by simp) (by decide) unfilled
    have fails : Build.Fails registry templates [] [] 0 (xs ++ [c])
        (.missingParameter localId typeName name) :=
      Build.Fails.append_iff.2 (.inr ⟨chain, expands, .here [] fault⟩)
    exact Build.buildPipeline_eq_error_iff.2 (.inl (Build.Fails.append_iff.2 (.inl fails)))

def labelText (parameter : String) : String :=
  "required=['" ++ parameter ++ "']\n[[pipeline]]\ntype='add'\nid='\x7b\x7b" ++ parameter ++
    "\x7d\x7d'"

def labelTemplate (parameter : String) : Template where
  name := "label"
  version := none
  description := none
  source := "label.toml"
  required := [parameter]
  optional := []
  pipeline := [[("type", .leaf (.plain (.string "add"))),
    ("id", .leaf (.pattern [.parameter parameter]))]]

theorem supplied_parameters_label :
    Template.parse (labelText "tag") "label" "label.toml" = .ok (labelTemplate "tag") ∧
      (labelTemplate "tag").instantiate [("tag", .leaf (.string "web"))] =
        .ok [[("type", .leaf (.string "add")), ("id", .leaf (.string "web"))]] := by
  have parsed : Template.parse (labelText "tag") "label" "label.toml" = .ok (labelTemplate "tag") := by
    cbv
  have stands : Build.StandsFor (Registry.builtin id) (.ofList [("label", labelTemplate "tag")])
      [("type", .leaf (.string "label")), ("tag", .leaf (.string "web"))] "label" "label"
      (labelTemplate "tag") :=
    { named := rfl, called := .inr ⟨rfl, rfl⟩, unregistered := rfl, found := rfl }
  have supplies : Build.Supplies (labelTemplate "tag")
      [("type", .leaf (.string "label")), ("tag", .leaf (.string "web"))] :=
    ⟨by decide, by decide, by decide⟩
  have filled := ((supplied_parameters parsed stands supplies).1 (by decide)).1
  exact ⟨parsed, filled⟩

/-- A template whose parameter is called as the id, which the table says and the template does not get. -/
theorem reserved_parameter_missed :
    Template.parse (labelText "id") "label" "label.toml" = .ok (labelTemplate "id") ∧
      Build.Supplies (labelTemplate "id")
        [("type", .leaf (.string "label")), ("id", .leaf (.string "web"))] ∧
      buildPipeline (Registry.builtin id) (.ofList [("label", labelTemplate "id")])
        [[("type", .leaf (.string "label")), ("id", .leaf (.string "web"))]] =
          .error (.missingParameter "web" "label" "id") := by
  have parsed : Template.parse (labelText "id") "label" "label.toml" = .ok (labelTemplate "id") := by
    cbv
  exact ⟨parsed, ⟨by decide, by decide, by decide⟩, rfl⟩

end LogIntake
