import LogIntake.Proofs.Settings.Merging

/-!
What a merge of one table over another holds behind a row of keys. Where both tables hold a table there,
it is these two merged; where only one of them has anything to say, it is what that one says; and the new
table has its way wherever the two differ in kind. The keys of the old table stay in their places, those
that only the new one has come behind them, and a second merge of the same table finds nothing to do.
-/
namespace LogIntake.Toml

variable {α : Type}

/-! ### Looking along a path -/

def Tree.at? : List String → Tree α → Option (Tree α)
  | [], t => some t
  | key :: path, .table entries => (Entries.get? key entries).bind (Tree.at? path)
  | _ :: _, _ => none

namespace Tree

@[simp] theorem at?_nil (t : Tree α) : t.at? [] = some t := by
  simp [at?]

@[simp] theorem at?_cons_table (key : String) (path : List String) (entries : Entries α) :
    (table entries).at? (key :: path) = (Entries.get? key entries).bind (at? path) := by
  simp [at?]

theorem at?_cons_of_ne_table {t : Tree α} (plain : ∀ entries, t ≠ table entries) (key : String)
    (path : List String) : t.at? (key :: path) = none := by
  cases t with
  | leaf a => simp [at?]
  | array items => simp [at?]
  | table entries => exact absurd rfl (plain entries)

theorem at?_cons (t : Tree α) (key : String) (path : List String) :
    t.at? (key :: path) = (t.at? [key]).bind (at? path) := by
  obtain ⟨entries, rfl⟩ | plain := exists_or_forall_not fun entries => t = table entries
  · rw [at?_cons_table, at?_cons_table]
    cases Entries.get? key entries <;> simp
  · rw [at?_cons_of_ne_table plain, at?_cons_of_ne_table plain, Option.bind_none]

theorem at?_cons_eq_some_iff {t v : Tree α} {key : String} {path : List String} :
    t.at? (key :: path) = some v ↔
      ∃ entries, t = table entries ∧ ∃ w, Entries.get? key entries = some w ∧ w.at? path = some v := by
  obtain ⟨entries, rfl⟩ | plain := exists_or_forall_not fun entries => t = table entries
  · simp [Option.bind_eq_some_iff]
  · simp [at?_cons_of_ne_table plain, plain]

/-- Something that is no table stands on the way along a path, or at its end. -/
def Blocks (t : Tree α) (path : List String) : Prop :=
  ∃ front back v, path = front ++ back ∧ t.at? front = some v ∧ ∀ entries, v ≠ table entries

theorem blocks_of_ne_table {t : Tree α} (plain : ∀ entries, t ≠ table entries) (path : List String) :
    t.Blocks path :=
  ⟨[], path, t, rfl, at?_nil t, plain⟩

theorem blocks_cons_iff {key : String} {path : List String} {entries : Entries α} :
    (table entries).Blocks (key :: path) ↔
      ∃ t, Entries.get? key entries = some t ∧ t.Blocks path := by
  constructor
  · rintro ⟨front, back, v, parts, held, plain⟩
    cases front with
    | nil => exact absurd (Option.some.inj held).symm (plain entries)
    | cons k front =>
      obtain ⟨rfl, rfl⟩ := List.cons.inj parts
      rw [at?_cons_table] at held
      obtain ⟨t, found, held⟩ := Option.bind_eq_some_iff.1 held
      exact ⟨t, found, front, back, v, rfl, held, plain⟩
  · rintro ⟨t, found, front, back, v, rfl, held, plain⟩
    refine ⟨key :: front, back, v, rfl, ?_, plain⟩
    rw [at?_cons_table, found]
    exact held

end Tree

/-! ### What a merge holds at a path -/

/-- Each key is there once in a tree that is a table. -/
def Tree.Distinct (t : Tree α) : Prop := ∀ entries, t = .table entries → Toml.Distinct entries

theorem Distinct.held {entries : Entries α} (h : Distinct entries) {key : String} {t : Tree α}
    (held : Entries.get? key entries = some t) : t.Distinct := by
  rintro below rfl
  exact h.inside held

theorem Tree.Distinct.at? {t v : Tree α} (h : t.Distinct) {path : List String}
    (held : t.at? path = some v) : v.Distinct := by
  induction path generalizing t with
  | nil =>
    rw [at?_nil] at held
    exact Option.some.inj held ▸ h
  | cons key path ih =>
    obtain ⟨entries, rfl, w, found, held⟩ := at?_cons_eq_some_iff.1 held
    exact ih ((h entries rfl).held found) held

/-- Under a key that the new table has, the merge goes on with what the old one has there. -/
theorem at?_mergeValue_of_held {above : Entries α} (once : (Entries.keys above).Nodup) {key : String}
    {w : Tree α} (held : Entries.get? key above = some w) (old : Option (Tree α)) (path : List String) :
    (mergeValue old (.table above)).at? (key :: path) =
      (mergeValue (old.bind (Tree.at? [key])) w).at? path := by
  obtain ⟨below, rfl⟩ | bare := exists_or_forall_not fun t => old = some (.table t)
  · have under : (some (Tree.table below)).bind (Tree.at? [key]) = Entries.get? key below := by
      rw [Option.bind_some, Tree.at?_cons_table]
      cases Entries.get? key below <;> simp
    rw [mergeValue_table, Tree.at?_cons_table, get?_mergeOver once below held, under]
    rfl
  · have under : old.bind (Tree.at? [key]) = none := by
      cases old with
      | none => rfl
      | some t => exact Tree.at?_cons_of_ne_table (fun entries h => bare entries (by rw [h])) key []
    rw [mergeValue_over_ne_table bare, Tree.at?_cons_table, held, under, mergeValue_none]
    rfl

theorem at?_mergeValue_of_absent {above : Entries α} {key : String}
    (absent : Entries.get? key above = none) (old : Option (Tree α)) (path : List String) :
    (mergeValue old (.table above)).at? (key :: path) = old.bind (Tree.at? (key :: path)) := by
  obtain ⟨below, rfl⟩ | bare := exists_or_forall_not fun t => old = some (.table t)
  · have same := get?_mergeOver_of_not_mem (Entries.get?_eq_none_iff.1 absent) below
    rw [mergeValue_table, Tree.at?_cons_table, same, Option.bind_some, Tree.at?_cons_table]
  · rw [mergeValue_over_ne_table bare, Tree.at?_cons_table, absent]
    cases old with
    | none => rfl
    | some t =>
      exact (Tree.at?_cons_of_ne_table (fun entries h => bare entries (by rw [h])) key path).symm

theorem at?_mergeValue_of_some {old : Option (Tree α)} {new : Tree α} (distinct : new.Distinct)
    {path : List String} {v : Tree α} (said : new.at? path = some v) :
    (mergeValue old new).at? path = some (mergeValue (old.bind (Tree.at? path)) v) := by
  -- one key leads from both trees to those below it, so the old one may be any, or none
  induction path generalizing old new with
  | nil =>
    rw [Tree.at?_nil] at said
    obtain rfl := Option.some.inj said
    cases old <;> simp
  | cons key path ih =>
    obtain ⟨above, rfl, w, held, said⟩ := Tree.at?_cons_eq_some_iff.1 said
    have once := distinct above rfl
    rw [at?_mergeValue_of_held once.once held, ih (once.held held) said, Option.bind_assoc]
    simp only [← Tree.at?_cons]

theorem at?_mergeValue_of_free {old : Option (Tree α)} {new : Tree α} (distinct : new.Distinct)
    {path : List String} (silent : new.at? path = none) (free : ¬ new.Blocks path) :
    (mergeValue old new).at? path = old.bind (Tree.at? path) := by
  induction path generalizing old new with
  | nil =>
    rw [Tree.at?_nil] at silent
    cases silent
  | cons key path ih =>
    obtain ⟨above, rfl⟩ | plain := exists_or_forall_not fun t => new = .table t
    swap
    · exact absurd (Tree.blocks_of_ne_table plain _) free
    cases held : Entries.get? key above with
    | none => exact at?_mergeValue_of_absent held old path
    | some w =>
      have once := distinct above rfl
      have later : ¬ w.Blocks path := fun blocked => free (Tree.blocks_cons_iff.2 ⟨w, held, blocked⟩)
      rw [Tree.at?_cons_table, held, Option.bind_some] at silent
      rw [at?_mergeValue_of_held once.once held, ih (once.held held) silent later, Option.bind_assoc]
      simp only [← Tree.at?_cons]

/-- Behind a value that is no table there is nothing, whatever the old table had there. -/
theorem at?_mergeValue_of_blocks {old : Option (Tree α)} {new : Tree α} (distinct : new.Distinct)
    {path : List String} (silent : new.at? path = none) (blocked : new.Blocks path) :
    (mergeValue old new).at? path = none := by
  induction path generalizing old new with
  | nil =>
    rw [Tree.at?_nil] at silent
    cases silent
  | cons key path ih =>
    obtain ⟨above, rfl⟩ | plain := exists_or_forall_not fun t => new = .table t
    · obtain ⟨w, held, blocked⟩ := Tree.blocks_cons_iff.1 blocked
      have once := distinct above rfl
      rw [Tree.at?_cons_table, held, Option.bind_some] at silent
      rw [at?_mergeValue_of_held once.once held, ih (once.held held) silent blocked]
    · rw [mergeValue_of_ne_table plain, silent]

/-! ### The order of the keys -/

theorem keys_mergeOver {new : Entries α} (once : (Entries.keys new).Nodup) (old : Entries α) :
    Entries.keys (mergeOver old new) =
      Entries.keys old ++ (Entries.keys new).filter (· ∉ Entries.keys old) := by
  induction new generalizing old with
  | nil => simp [Entries.keys]
  | cons e rest ih =>
    obtain ⟨key, v⟩ := e
    obtain ⟨fresh, restOnce⟩ := List.nodup_cons.1 once
    have first : Entries.keys ((key, v) :: rest) = key :: Entries.keys rest := rfl
    rw [mergeOver_cons, ih restOnce, Entries.keys_put, first]
    by_cases present : key ∈ Entries.keys old
    · rw [if_pos present, List.filter_cons_of_neg (by simpa using present)]
    · have others : (Entries.keys rest).filter (· ∉ Entries.keys old ++ [key]) =
          (Entries.keys rest).filter (· ∉ Entries.keys old) := by
        apply List.filter_congr
        intro other later
        have differs : other ≠ key := by
          rintro rfl
          exact fresh later
        simp [differs]
      rw [if_neg present, List.filter_cons_of_pos (by simpa using present), others,
        List.append_assoc, List.singleton_append]

/-! ### Merging a table twice -/

theorem Entries.put_of_get? {β : Type} {key : String} {value : β} {entries : List (String × β)}
    (held : get? key entries = some value) : put key value entries = entries := by
  induction entries with
  | nil => cases held
  | cons e rest ih =>
    by_cases here : e.1 = key
    · obtain rfl : e.2 = value := by simpa [get?, here] using held
      simp [put, ← here]
    · simp only [get?, here, if_false] at held
      simp [put, here, ih held]

theorem mergeOver_eq_left {old new : Entries α} (once : (Entries.keys new).Nodup)
    (known : ∀ key v, Entries.get? key new = some v →
      Entries.get? key old = some (mergeValue (Entries.get? key old) v)) :
    mergeOver old new = old := by
  induction new with
  | nil => exact mergeOver_nil old
  | cons e rest ih =>
    obtain ⟨key, v⟩ := e
    obtain ⟨fresh, restOnce⟩ := List.nodup_cons.1 once
    have here := known key v (by simp [Entries.get?])
    rw [mergeOver_cons, Entries.put_of_get? here]
    apply ih restOnce
    intro other w later
    have differs : key ≠ other := by
      rintro rfl
      exact absurd later (by simp [Entries.get?_eq_none_iff.2 fresh])
    exact known other w (by simpa [Entries.get?, differs] using later)

theorem mergeOver_self {new : Entries α} (distinct : Distinct new) : mergeOver new new = new := by
  induction distinct with
  | @intro new once inside ih =>
    apply mergeOver_eq_left once
    intro key v held
    rw [held]
    obtain ⟨below, rfl⟩ | plain := exists_or_forall_not fun t => v = .table t
    · rw [mergeValue_table, ih key below held]
    · rw [mergeValue_of_ne_table plain]

theorem Clash.ne {file earlier later : Entries α} (clash : Clash file earlier later) :
    earlier ≠ later := by
  induction clash with
  | here filed replaced plain restored mixed =>
    rintro rfl
    rw [restored] at replaced
    exact plain _ (Option.some.inj replaced).symm
  | inside filed between restored deeper ih =>
    rintro rfl
    rw [between] at restored
    exact ih (Tree.table.inj (Option.some.inj restored))

theorem mergeOver_mergeOver_self (old : Entries α) {new : Entries α} (distinct : Distinct new) :
    mergeOver (mergeOver old new) new = mergeOver old new := by
  have clear : ¬ Clash old new new := fun clash => clash.ne rfl
  rw [(mergeOver_assoc_iff distinct distinct).2 clear, mergeOver_self distinct]

/-! ### What a merge is -/

/-- The table `merged` is what `new` makes of `old`. -/
structure Overlays (old new merged : Entries α) : Prop where
  /-- Where both hold a table all along a path, these are merged in their turn. The keys of the old one
  keep their places, and those that it has not follow in the order of the new one. -/
  merges : ∀ path below above, (Tree.table old).at? path = some (.table below) →
    (Tree.table new).at? path = some (.table above) →
    (Tree.table merged).at? path = some (.table (mergeOver below above)) ∧
      Entries.keys (mergeOver below above) =
        Entries.keys below ++ (Entries.keys above).filter (· ∉ Entries.keys below)
  /-- What the new table holds stands, unless it is a table over a table. -/
  sets : ∀ path v, (Tree.table new).at? path = some v →
    ¬ (∃ below above, (Tree.table old).at? path = some (.table below) ∧ v = .table above) →
    (Tree.table merged).at? path = some v
  /-- What the old table holds stays where the new one neither has anything nor stops short of it at
  something that is no table. -/
  keeps : ∀ path, (Tree.table new).at? path = none → ¬ (Tree.table new).Blocks path →
    (Tree.table merged).at? path = (Tree.table old).at? path
  /-- Behind something of the new table that is no table nothing is left. -/
  hides : ∀ path, (Tree.table new).at? path = none → (Tree.table new).Blocks path →
    (Tree.table merged).at? path = none

/-- A merge puts the new table over the old one path by path; an empty table changes nothing, and
neither does merging the same table again. -/
theorem mergeOver_overlays {new : Entries α} (distinct : Distinct new) (old : Entries α) :
    Overlays old new (mergeOver old new) ∧ mergeOver old [] = old ∧
      mergeOver (mergeOver old new) new = mergeOver old new := by
  refine ⟨?_, mergeOver_nil old, mergeOver_mergeOver_self old distinct⟩
  have whole : (Tree.table new).Distinct := fun entries same => Tree.table.inj same ▸ distinct
  have merged : Tree.table (mergeOver old new) = mergeValue (some (.table old)) (.table new) :=
    (mergeValue_table old new).symm
  constructor
  case merges =>
    intro path below above filed said
    have once : (Entries.keys above).Nodup := (whole.at? said above rfl).once
    refine ⟨?_, keys_mergeOver once below⟩
    rw [merged, at?_mergeValue_of_some whole said, Option.bind_some, filed, mergeValue_table]
  case sets =>
    intro path v said other
    rw [merged, at?_mergeValue_of_some whole said, Option.bind_some]
    obtain ⟨above, rfl⟩ | plain := exists_or_forall_not fun t => v = .table t
    · rw [mergeValue_over_ne_table fun below filed => other ⟨below, above, filed, rfl⟩]
    · rw [mergeValue_of_ne_table plain]
  case keeps =>
    intro path silent free
    rw [merged, at?_mergeValue_of_free whole silent free, Option.bind_some]
  case hides =>
    intro path silent blocked
    rw [merged, at?_mergeValue_of_blocks whole silent blocked]

def nestedAt (inner flag : String) : Table :=
  [("k", .table (Source.blankUnder inner)), (flag, .leaf (.boolean true))]

theorem distinct_nestedAt {inner flag : String} (other : flag ≠ "k") :
    Distinct (nestedAt inner flag) := by
  refine ⟨by simpa [nestedAt, Entries.keys] using other.symm, fun key below held => ?_⟩
  simp only [nestedAt, Entries.get?] at held
  split at held
  · cases held
    exact Source.distinct_blankUnder inner
  · split at held <;> cases held

/-- The tables under `k` are merged, and the flag of the new table comes last. -/
theorem nested_overlays :
    Distinct (nestedAt "y" "q") ∧
      Overlays (nestedAt "x" "p") (nestedAt "y" "q")
        [("k", .table [("x", .leaf (.string "")), ("y", .leaf (.string ""))]),
          ("p", .leaf (.boolean true)), ("q", .leaf (.boolean true))] ∧
      mergeOver (mergeOver (nestedAt "x" "p") (nestedAt "y" "q")) (nestedAt "y" "q") =
        [("k", .table [("x", .leaf (.string "")), ("y", .leaf (.string ""))]),
          ("p", .leaf (.boolean true)), ("q", .leaf (.boolean true))] := by
  have distinct : Distinct (nestedAt "y" "q") := distinct_nestedAt (by decide)
  obtain ⟨overlays, -, again⟩ := mergeOver_overlays distinct (nestedAt "x" "p")
  exact ⟨distinct, overlays, again⟩

end LogIntake.Toml
