import LogIntake.Proofs.Expansion.Resolve

/-!
A template's tables may as well be written in place of the table that names it. They then need ids that
say where they came from, and nothing else changes.
-/
namespace LogIntake

namespace Build

variable {σ : Type} {registry : Registry σ} {templates : TemplateSet}

def localName (table : Toml.Table) : String :=
  match Toml.Entries.get? "id" table, Toml.Entries.get? "type" table with
  | some (.leaf (.string localId)), _ => localId
  | _, some (.leaf (.string typeName)) => typeName
  | _, _ => ""

/-- A table of a template as it is written outside: its id comes after that of the template's
operator. -/
def underName (outer : String) (table : Toml.Table) : Toml.Table :=
  Toml.Entries.put "id" (.leaf (.string (outer ++ "." ++ localName table))) table

theorem LocalId.localName_eq {table : Toml.Table} {localId : String} (h : LocalId table localId) :
    localName table = localId := by
  rcases h with h | ⟨h, ht⟩
  · simp [localName, h]
  · simp [localName, h, ht]

theorem localId_underName (outer : String) (table : Toml.Table) :
    LocalId (underName outer table) (outer ++ "." ++ localName table) :=
  .inl (Toml.Entries.get?_put_self "id" _ table)

theorem type_underName (outer : String) (table : Toml.Table) :
    Toml.Entries.get? "type" (underName outer table) = Toml.Entries.get? "type" table :=
  Toml.Entries.get?_put_of_ne (by decide) _ table

theorem settingsOf_underName (outer : String) (table : Toml.Table) :
    settingsOf (underName outer table) = settingsOf table := by
  rw [settingsOf, underName, Toml.Entries.erase_put_of_ne (by decide), Toml.Entries.erase_put_self,
    settingsOf]

/-- Outside the template, under its longer id, a table resolves to the same. -/
theorem Resolves.underName {descend : Option (Descend σ)} {outer : String} {stack : List String}
    {table : Toml.Table} {chain : List (Resolved σ)}
    (h : Resolves registry templates (some outer) stack table descend chain) :
    Resolves registry templates none stack (underName outer table) descend chain := by
  have hid := localId_underName outer table
  have hset := settingsOf_underName outer table
  have hfull : fullId none (outer ++ "." ++ localName table) = fullId (some outer) (localName table) :=
    rfl
  cases h with
  | operator named called registered =>
    rw [← called.localName_eq, ← hfull, ← hset]
    exact .operator ((type_underName outer table).trans named) hid registered
  | template named called unregistered found fresh filled resolved =>
    rw [← called.localName_eq] at resolved
    exact .template ((type_underName outer table).trans named) hid unregistered found fresh
      (hset.symm ▸ filled) resolved

theorem resolveEach_index {descend : Option (Descend σ)} {place : Option String} {stack : List String}
    {tables : List Toml.Table} {chain : List (Resolved σ)} {i : Nat} (j : Nat)
    (h : resolveEach (resolveOne registry templates descend place stack) i tables = .ok chain) :
    resolveEach (resolveOne registry templates descend place stack) j tables = .ok chain := by
  have hone : ∀ i j table chain, table ∈ tables →
      resolveOne registry templates descend place stack i table = .ok chain →
      resolveOne registry templates descend place stack j (id table) = .ok chain :=
    fun i j table chain _ ho => resolveOne_eq_ok_iff.2 (resolveOne_eq_ok_iff.1 ho)
  simpa using resolveEach_map_eq_ok hone j h

theorem resolveEach_underName {room : Nat} {outer typeName : String} {tables : List Toml.Table}
    {chain : List (Resolved σ)} (j : Nat)
    (h : resolveAll registry templates room (some outer) [typeName] tables = .ok chain) :
    resolveEach (resolveOne registry templates (below registry templates (room + 1)) none []) j
      (tables.map (underName outer)) = .ok chain := by
  rw [resolveAll_eq] at h
  refine resolveEach_map_eq_ok (fun i j table chain _ ho => ?_) j h
  have hw : Wider (below registry templates (room + 1)) (below registry templates room) :=
    wider_below (Nat.le_succ room)
  have hr := (resolveOne_eq_ok_iff.1 ho).underName
  exact resolveOne_eq_ok_iff.2 (hr.widen hw (by simp))

theorem expand_inline {xs ys : List Toml.Table} {c : Toml.Table} {typeName : String} {t : Template}
    {chain : List (Resolved σ)}
    (named : Toml.Entries.get? "type" c = some (.leaf (.string typeName)))
    (unregistered : registry.get? typeName = none) (found : templates.get? typeName = some t)
    (h : expand registry templates (xs ++ [c] ++ ys) = .ok chain) :
    ∃ tables, t.instantiate (settingsOf c) = .ok tables ∧
      expand registry templates (xs ++ tables.map (underName (localName c)) ++ ys) = .ok chain := by
  rw [expand, resolveAll_eq] at h
  obtain ⟨front, back, hfront, hback, rfl⟩ := resolveEach_append_eq_ok_iff.1 h
  obtain ⟨before, here, hbefore, hhere, rfl⟩ := resolveEach_append_eq_ok_iff.1 hfront
  obtain ⟨mid, rest, hmid, hrest, rfl⟩ := resolveEach_cons_eq_ok_iff.1 hhere
  obtain rfl : rest = [] := by simpa [resolveEach, eq_comm] using hrest
  have hres := resolveOne_eq_ok_iff.1 hmid
  generalize hd : below registry templates maxTemplateDepth = descend at hres
  cases hres with
  | operator named' _ registered =>
    obtain rfl : _ = typeName := by simpa [named] using named'.symm
    simp [unregistered] at registered
  | @template descend typeName' localId t' tables _ named' called _ found' _ filled resolved =>
    obtain rfl : typeName' = typeName := by simpa [named] using named'.symm
    obtain rfl : t' = t := by simpa [found] using found'.symm
    obtain rfl : descend = resolveAll registry templates 15 := (Option.some.inj hd).symm
    refine ⟨tables, filled, ?_⟩
    rw [expand, resolveAll_eq]
    have hp : fullId none localId = localName c := called.localName_eq.symm
    rw [hp] at resolved
    have hin := resolveEach_underName (0 + xs.length) resolved
    have hafter := resolveEach_index (0 + (xs ++ tables.map (underName (localName c))).length) hback
    refine resolveEach_append_eq_ok_iff.2 ⟨before ++ mid, back, ?_, hafter, by simp⟩
    exact resolveEach_append_eq_ok_iff.2 ⟨before, mid, hbefore, hin, rfl⟩

end Build

/-- A table that names a template may be replaced by the tables of the template, each with the id of the
template's operator before its own: the chain that is built is the same, and so are the ids, types and
settings of its operators. -/
theorem buildPipeline_inline {σ : Type} {registry : Registry σ} {templates : TemplateSet}
    {xs ys : List Toml.Table} {c : Toml.Table} {typeName : String} {t : Template}
    {stages : List (Stage σ)}
    (named : Toml.Entries.get? "type" c = some (.leaf (.string typeName)))
    (unregistered : registry.get? typeName = none) (found : templates.get? typeName = some t)
    (built : buildPipeline registry templates (xs ++ [c] ++ ys) = .ok stages) :
    ∃ tables chain, t.instantiate (Build.settingsOf c) = .ok tables ∧
      Build.expand registry templates (xs ++ [c] ++ ys) = .ok chain ∧
      Build.expand registry templates
        (xs ++ tables.map (Build.underName (Build.localName c)) ++ ys) = .ok chain ∧
      Build.makeAll chain = .ok stages ∧
      buildPipeline registry templates
        (xs ++ tables.map (Build.underName (Build.localName c)) ++ ys) = .ok stages := by
  obtain ⟨chain, hchain, hrest⟩ := bind_eq_ok_iff.1 built
  obtain ⟨tables, filled, hinline⟩ := Build.expand_inline named unregistered found hchain
  have hmade : Build.makeAll chain = .ok stages := by
    split at hrest
    · simp at hrest
    · exact hrest
  exact ⟨tables, chain, filled, hchain, hinline, hmade, bind_eq_ok_iff.2 ⟨chain, hinline, hrest⟩⟩

def anyType : OperatorType Unit := ⟨"any", .intermediate, fun _ _ => .ok ()⟩

def pairTemplate : Template where
  name := "pair"
  version := none
  description := none
  source := "pair.toml"
  required := ["kind"]
  optional := []
  pipeline := [[("type", .leaf (.pattern [.parameter "kind"]))],
    [("type", .leaf (.plain (.string "any"))), ("id", .leaf (.plain (.string "last")))]]

theorem buildPipeline_inline_pair :
    buildPipeline (Registry.ofTypes [anyType]) (.ofList [("pair", pairTemplate)])
        ([] ++ [[("type", .leaf (.string "pair")), ("kind", .leaf (.string "any"))]] ++
          [[("type", .leaf (.string "any"))]]) =
      .ok [⟨"pair.any", "any", .intermediate, ()⟩, ⟨"pair.last", "any", .intermediate, ()⟩,
        ⟨"any", "any", .intermediate, ()⟩] ∧
    ∃ tables, pairTemplate.instantiate [("kind", .leaf (.string "any"))] = .ok tables ∧
      buildPipeline (Registry.ofTypes [anyType]) (.ofList [("pair", pairTemplate)])
        ([] ++ tables.map (Build.underName "pair") ++ [[("type", .leaf (.string "any"))]]) =
      .ok [⟨"pair.any", "any", .intermediate, ()⟩, ⟨"pair.last", "any", .intermediate, ()⟩,
        ⟨"any", "any", .intermediate, ()⟩] := by
  have built : buildPipeline (Registry.ofTypes [anyType]) (.ofList [("pair", pairTemplate)])
        ([] ++ [[("type", .leaf (.string "pair")), ("kind", .leaf (.string "any"))]] ++
          [[("type", .leaf (.string "any"))]]) =
      .ok [⟨"pair.any", "any", .intermediate, ()⟩, ⟨"pair.last", "any", .intermediate, ()⟩,
        ⟨"any", "any", .intermediate, ()⟩] := by rfl
  obtain ⟨tables, _, filled, _, _, _, inlined⟩ := buildPipeline_inline rfl rfl rfl built
  exact ⟨built, tables, filled, inlined⟩

end LogIntake
