import LogIntake.Settings.Load
import Mathlib

/-!
Merging a row of tables. A merge sets one key after another, so it is known by what it makes of each key,
and two merges in a row may be taken together only where that is the same for each. It is not where a
table was replaced by a value that is none and then set to a table again: taken together, the two merges
put the second table over the first one, which was gone.
-/
namespace LogIntake

namespace Toml

variable {α β : Type}

/-! ### Setting a key -/

namespace Entries

theorem put_put_self (key : String) (first second : β) (entries : List (String × β)) :
    put key second (put key first entries) = put key second entries := by
  induction entries with
  | nil => simp [put]
  | cons e rest ih =>
    by_cases h : e.1 = key
    · simp [put, h]
    · simp [put, h, ih]

/-- Two keys may be set in either order if one of them is there. -/
theorem put_comm {key other : String} (hne : other ≠ key) {entries : List (String × β)}
    (present : key ∈ keys entries) (value new : β) :
    put other new (put key value entries) = put key value (put other new entries) := by
  induction entries with
  | nil => simp [keys] at present
  | cons e rest ih =>
    by_cases hk : e.1 = key
    · simp [put, hk, hne.symm]
    · have later : key ∈ keys rest := by simpa [keys, Ne.symm hk] using present
      by_cases ho : e.1 = other
      · simp [put, ho, hne]
      · simp [put, hk, ho, ih later]

theorem mem_keys_put {key other : String} {value : β} {entries : List (String × β)} :
    other ∈ keys (put key value entries) ↔ other = key ∨ other ∈ keys entries := by
  rw [keys_put]
  split
  · next present =>
    constructor
    · exact .inr
    · rintro (rfl | h)
      · exact present
      · exact h
  · simp [or_comm]

theorem nodup_keys_put {key : String} {value : β} {entries : List (String × β)}
    (h : (keys entries).Nodup) : (keys (put key value entries)).Nodup := by
  rw [keys_put]
  split
  · exact h
  · next absent =>
    rw [List.nodup_append]
    refine ⟨h, by simp, ?_⟩
    rintro a ha b hb rfl
    exact absent (by simpa [List.mem_singleton.1 hb] using ha)

end Entries

/-! ### What a merge makes of each key -/

@[simp] theorem mergeValue_none (new : Tree α) : mergeValue none new = new := by
  simp [mergeValue]

@[simp] theorem mergeValue_table (old new : Entries α) :
    mergeValue (some (.table old)) (.table new) = .table (mergeOver old new) := by
  simp [mergeValue]

theorem mergeValue_of_ne_table {new : Tree α} (plain : ∀ t, new ≠ .table t) (old : Option (Tree α)) :
    mergeValue old new = new := by
  cases old with
  | none => exact mergeValue_none new
  | some old =>
    cases new with
    | leaf a => cases old <;> simp [mergeValue]
    | array items => cases old <;> simp [mergeValue]
    | table t => exact absurd rfl (plain t)

theorem mergeValue_over_ne_table {old : Option (Tree α)} (plain : ∀ t, old ≠ some (.table t))
    (new : Tree α) : mergeValue old new = new := by
  cases old with
  | none => exact mergeValue_none new
  | some old =>
    cases old with
    | leaf a => simp [mergeValue]
    | array items => simp [mergeValue]
    | table t => exact absurd rfl (plain t)

theorem get?_mergeOver_of_not_mem {new : Entries α} {key : String}
    (absent : key ∉ Entries.keys new) (old : Entries α) :
    Entries.get? key (mergeOver old new) = Entries.get? key old := by
  induction new generalizing old with
  | nil => simp
  | cons e rest ih =>
    simp only [Entries.keys, List.map_cons, List.mem_cons, not_or] at absent
    rw [mergeOver_cons, ih absent.2, Entries.get?_put_of_ne absent.1]

theorem get?_mergeOver {new : Entries α} (distinct : (Entries.keys new).Nodup) (old : Entries α)
    {key : String} {v : Tree α} (said : Entries.get? key new = some v) :
    Entries.get? key (mergeOver old new) = some (mergeValue (Entries.get? key old) v) := by
  induction new generalizing old with
  | nil => simp [Entries.get?] at said
  | cons e rest ih =>
    obtain ⟨k, w⟩ := e
    obtain ⟨fresh, restDistinct⟩ := List.nodup_cons.1 distinct
    rw [mergeOver_cons]
    by_cases hk : k = key
    · subst hk
      obtain rfl : w = v := by simpa [Entries.get?] using said
      rw [get?_mergeOver_of_not_mem fresh, Entries.get?_put_self]
    · have later : Entries.get? key rest = some v := by simpa [Entries.get?, hk] using said
      rw [ih restDistinct _ later, Entries.get?_put_of_ne (Ne.symm hk)]

theorem nodup_keys_mergeOver {old : Entries α} (h : (Entries.keys old).Nodup) (new : Entries α) :
    (Entries.keys (mergeOver old new)).Nodup := by
  induction new generalizing old with
  | nil => simpa using h
  | cons e rest ih =>
    rw [mergeOver_cons]
    exact ih (Entries.nodup_keys_put h)

/-! ### Setting a key of a table that is merged over another -/

/-- A key that is there may be set before a merge that leaves it alone or after it. -/
theorem put_mergeOver {key : String} {new : Entries α} (absent : key ∉ Entries.keys new)
    {old : Entries α} (present : key ∈ Entries.keys old) (value : Tree α) :
    Entries.put key value (mergeOver old new) = mergeOver (Entries.put key value old) new := by
  induction new generalizing old with
  | nil => simp
  | cons e rest ih =>
    simp only [Entries.keys, List.map_cons, List.mem_cons, not_or] at absent
    have hne : e.1 ≠ key := Ne.symm absent.1
    rw [mergeOver_cons, mergeOver_cons, Entries.get?_put_of_ne hne, Entries.put_comm hne present]
    exact ih absent.2 (Entries.mem_keys_put.2 (.inr present))

/-- Setting a key of the table that is merged sets the key of the outcome, to the value merged over the
one that was there. -/
theorem mergeOver_put {new : Entries α} (distinct : (Entries.keys new).Nodup) (old : Entries α)
    (key : String) (value : Tree α) :
    mergeOver old (Entries.put key value new) =
      Entries.put key (mergeValue (Entries.get? key old) value) (mergeOver old new) := by
  induction new generalizing old with
  | nil => simp [Entries.put]
  | cons e rest ih =>
    obtain ⟨k, w⟩ := e
    obtain ⟨fresh, restDistinct⟩ := List.nodup_cons.1 distinct
    by_cases hk : k = key
    · subst hk
      have set : Entries.put k value ((k, w) :: rest) = (k, value) :: rest := by simp [Entries.put]
      have present : k ∈ Entries.keys (Entries.put k (mergeValue (Entries.get? k old) w) old) :=
        Entries.mem_keys_put.2 (.inl rfl)
      rw [set, mergeOver_cons, mergeOver_cons, put_mergeOver fresh present, Entries.put_put_self]
    · have later : Entries.put key value ((k, w) :: rest) = (k, w) :: Entries.put key value rest := by
        simp [Entries.put, hk]
      rw [later, mergeOver_cons, mergeOver_cons, ih restDistinct, Entries.get?_put_of_ne (Ne.symm hk)]

/-! ### Two merges in a row -/

theorem mergeOver_mergeOver_iff {file earlier later : Entries α}
    (distinct : (Entries.keys earlier).Nodup) (laterDistinct : (Entries.keys later).Nodup) :
    mergeOver (mergeOver file earlier) later = mergeOver file (mergeOver earlier later) ↔
      ∀ key v, Entries.get? key later = some v →
        mergeValue (Entries.get? key (mergeOver file earlier)) v =
          mergeValue (Entries.get? key file) (mergeValue (Entries.get? key earlier) v) := by
  constructor
  · intro same key v said
    have inner := get?_mergeOver laterDistinct earlier said
    have left := get?_mergeOver laterDistinct (mergeOver file earlier) said
    have right := get?_mergeOver (nodup_keys_mergeOver distinct later) file inner
    rw [same, right] at left
    exact (Option.some.inj left).symm
  · intro each
    induction later generalizing earlier with
    | nil => simp
    | cons e rest ih =>
      obtain ⟨key, v⟩ := e
      obtain ⟨fresh, restDistinct⟩ := List.nodup_cons.1 laterDistinct
      have here := each key v (by simp [Entries.get?])
      rw [mergeOver_cons, mergeOver_cons, here, ← mergeOver_put distinct]
      refine ih (Entries.nodup_keys_put distinct) restDistinct ?_
      intro other w said
      have hne : other ≠ key := by
        rintro rfl
        exact absurd said (by simp [Entries.get?_eq_none_iff.2 fresh])
      rw [mergeOver_put distinct, Entries.get?_put_of_ne hne, Entries.get?_put_of_ne hne]
      exact each other w (by simpa [Entries.get?, hne.symm] using said)

/-- Each key is there once, in a table and in the tables that it holds. -/
inductive Distinct : Entries α → Prop
  | intro {entries : Entries α} (once : (Entries.keys entries).Nodup)
      (inside : ∀ key below, Entries.get? key entries = some (.table below) → Distinct below) :
      Distinct entries

theorem Distinct.once {entries : Entries α} (h : Distinct entries) :
    (Entries.keys entries).Nodup := by
  cases h with
  | intro once _ => exact once

theorem Distinct.inside {entries below : Entries α} (h : Distinct entries) {key : String}
    (held : Entries.get? key entries = some (.table below)) : Distinct below := by
  cases h with
  | intro _ inside => exact inside key below held

theorem Distinct.mergeOver {old new : Entries α} (ho : Distinct old) (hn : Distinct new) :
    Distinct (mergeOver old new) := by
  induction hn generalizing old with
  | @intro new once inside ih =>
    refine ⟨nodup_keys_mergeOver ho.once new, fun key below held => ?_⟩
    cases said : Entries.get? key new with
    | none =>
      rw [get?_mergeOver_of_not_mem (Entries.get?_eq_none_iff.1 said)] at held
      exact ho.inside held
    | some v =>
      rw [get?_mergeOver once old said, Option.some.injEq] at held
      obtain ⟨above, rfl⟩ | plain := exists_or_forall_not fun t => v = .table t
      · obtain ⟨under, filed⟩ | bare :=
          exists_or_forall_not fun t => Entries.get? key old = some (.table t)
        · rw [filed, mergeValue_table, Tree.table.injEq] at held
          exact held ▸ ih key above said (ho.inside filed)
        · rw [mergeValue_over_ne_table bare, Tree.table.injEq] at held
          exact held ▸ inside key above said
      · rw [mergeValue_of_ne_table plain] at held
        exact absurd held (plain below)

/-- Taken together, two merges bring back what was gone: a table of the file that the first one replaced
by a value that is none, and the second one by another table. -/
inductive Clash : (file earlier later : Entries α) → Prop
  | here {file earlier later below above : Entries α} {key : String} {v : Tree α}
      (filed : Entries.get? key file = some (.table below))
      (replaced : Entries.get? key earlier = some v) (plain : ∀ t, v ≠ .table t)
      (restored : Entries.get? key later = some (.table above))
      (mixed : mergeOver below above ≠ above) : Clash file earlier later
  | inside {file earlier later below middle above : Entries α} {key : String}
      (filed : Entries.get? key file = some (.table below))
      (between : Entries.get? key earlier = some (.table middle))
      (restored : Entries.get? key later = some (.table above))
      (deeper : Clash below middle above) : Clash file earlier later

theorem mergeOver_assoc_iff {file earlier later : Entries α} (he : Distinct earlier)
    (hl : Distinct later) :
    mergeOver (mergeOver file earlier) later = mergeOver file (mergeOver earlier later) ↔
      ¬ Clash file earlier later := by
  induction hl generalizing file earlier with
  | @intro later once inside ih =>
    rw [mergeOver_mergeOver_iff he.once once]
    constructor
    · intro each clash
      cases clash with
      | @here _ _ _ below above key v filed replaced plain restored mixed =>
        have same := each _ _ restored
        have gone : ∀ t, some v ≠ some (.table t) := fun t h => plain t (Option.some.inj h)
        rw [get?_mergeOver he.once file replaced, replaced, filed, mergeValue_of_ne_table plain,
          mergeValue_over_ne_table gone, mergeValue_table, Tree.table.injEq] at same
        exact mixed same.symm
      | inside filed between restored deeper =>
        have same := each _ _ restored
        rw [get?_mergeOver he.once file between, between, filed, mergeValue_table, mergeValue_table,
          mergeValue_table, mergeValue_table, Tree.table.injEq] at same
        exact (ih _ _ restored (he.inside between)).1 same deeper
    · intro clear key v restored
      -- only a table can be merged with what is there, so only tables of the second one matter
      obtain ⟨above, rfl⟩ | other := exists_or_forall_not fun t => v = .table t
      swap
      · simp only [mergeValue_of_ne_table other]
      cases between : Entries.get? key earlier with
      | none =>
        rw [get?_mergeOver_of_not_mem (Entries.get?_eq_none_iff.1 between), mergeValue_none]
      | some w =>
        rw [get?_mergeOver he.once file between]
        obtain ⟨below, filed⟩ | bare :=
          exists_or_forall_not fun t => Entries.get? key file = some (.table t)
        · rw [filed]
          obtain ⟨middle, rfl⟩ | plain := exists_or_forall_not fun t => w = .table t
          · have deeper : ¬ Clash below middle above :=
              fun clash => clear (.inside filed between restored clash)
            rw [mergeValue_table, mergeValue_table, mergeValue_table, mergeValue_table,
              (ih key above restored (he.inside between)).2 deeper]
          · have gone : ∀ t, some w ≠ some (.table t) := fun t h => plain t (Option.some.inj h)
            rw [mergeValue_of_ne_table plain, mergeValue_over_ne_table gone, mergeValue_table]
            by_cases mixed : mergeOver below above = above
            · rw [mixed]
            · exact absurd (.here filed between plain restored mixed) clear
        · rw [mergeValue_over_ne_table bare, mergeValue_over_ne_table bare]

end Toml

namespace Source

/-! ### A row of overrides -/

/-- The table of a file with overrides merged over it: first into one, then over the table. -/
def overlaid (file : Toml.Table) (overrides : List Toml.Table) : Toml.Table :=
  match joined? overrides with
  | none => file
  | some override => Toml.mergeOver file override

theorem table_eq_overlaid {s : Source} {text : String} {file : Toml.Table} (read : s.text = .ok text)
    (parsed : decodeToml (Toml.decodeTable .text) text = .ok file) :
    s.table = .ok (overlaid file s.overrides) := by
  have mapped : (decodeToml (Toml.decodeTable .text) text).mapError SourceFault.invalidToml = .ok file :=
    mapError_eq_ok_iff.2 parsed
  simp only [table, read, mapped, bind, Except.bind, overlaid]
  cases joined? s.overrides <;> rfl

theorem joined?_append_singleton (overrides : List Toml.Table) (override : Toml.Table) :
    joined? (overrides ++ [override]) =
      match joined? overrides with
      | none => some override
      | some joined => some (Toml.mergeOver joined override) := by
  cases overrides with
  | nil => rfl
  | cons first rest => simp [joined?]

theorem distinct_joined {overrides : List Toml.Table} (h : ∀ o ∈ overrides, Toml.Distinct o)
    {joined : Toml.Table} (hj : joined? overrides = some joined) : Toml.Distinct joined := by
  induction overrides using List.reverseRecOn generalizing joined with
  | nil => cases hj
  | append_singleton front override ih =>
    have last := h override (by simp)
    rw [joined?_append_singleton] at hj
    cases hf : joined? front with
    | none =>
      rw [hf] at hj
      exact Option.some.inj hj ▸ last
    | some before =>
      rw [hf] at hj
      have earlier := ih (fun o ho => h o (List.mem_append_left _ ho)) hf
      exact Option.some.inj hj ▸ earlier.mergeOver last

/-- One more override comes after those before it, unless it clashes with what they were joined to. -/
theorem overlaid_append_singleton_iff {file override : Toml.Table} {overrides : List Toml.Table}
    (h : ∀ o ∈ overrides, Toml.Distinct o) (ho : Toml.Distinct override) :
    overlaid file (overrides ++ [override]) = Toml.mergeOver (overlaid file overrides) override ↔
      ∀ joined, joined? overrides = some joined → ¬ Toml.Clash file joined override := by
  rw [overlaid, overlaid, joined?_append_singleton]
  cases hj : joined? overrides with
  | none => simp
  | some joined =>
    simp only [Option.some.injEq, forall_eq']
    rw [eq_comm]
    exact Toml.mergeOver_assoc_iff (distinct_joined h hj) ho

theorem overlaid_eq_foldl_iff {file : Toml.Table} {overrides : List Toml.Table}
    (h : ∀ o ∈ overrides, Toml.Distinct o) :
    (∀ front back, overrides = front ++ back →
      overlaid file front = front.foldl Toml.mergeOver file) ↔
      ∀ front override back joined, overrides = front ++ override :: back →
        joined? front = some joined → ¬ Toml.Clash file joined override := by
  have stage : ∀ front override back, overrides = front ++ override :: back →
      (overlaid file (front ++ [override]) = Toml.mergeOver (overlaid file front) override ↔
        ∀ joined, joined? front = some joined → ¬ Toml.Clash file joined override) := by
    rintro front override back rfl
    exact overlaid_append_singleton_iff (fun o ho => h o (List.mem_append_left _ ho))
      (h override (by simp))
  constructor
  · intro inOrder front override back joined split
    have before := inOrder front (override :: back) split
    have after := inOrder (front ++ [override]) back (by simp [split])
    rw [List.foldl_append, ← before] at after
    exact (stage front override back split).1 after joined
  · intro clear front
    induction front using List.reverseRecOn with
    | nil =>
      intro back _
      rfl
    | append_singleton front override ih =>
      intro back split
      have here : overrides = front ++ override :: back := by simp [split]
      rw [(stage front override back here).2 (fun joined => clear front override back joined here),
        ih (override :: back) here, List.foldl_append]
      rfl

/-- What a file loads to is its table with the overrides merged over it one after another, for these
overrides and for the first of them, exactly if none of them clashes: where those before it put another
value in place of a table of the file, it does not set a table again. -/
theorem overrides_in_order_iff {s : Source} {text : String} {file : Toml.Table}
    (read : s.text = .ok text) (parsed : decodeToml (Toml.decodeTable .text) text = .ok file)
    (distinct : ∀ o ∈ s.overrides, Toml.Distinct o) :
    (∀ front back, s.overrides = front ++ back →
      ({ s with overrides := front }).table = .ok (front.foldl Toml.mergeOver file)) ↔
      ∀ front override back joined, s.overrides = front ++ override :: back →
        joined? front = some joined → ¬ Toml.Clash file joined override := by
  rw [← overlaid_eq_foldl_iff distinct]
  have loaded : ∀ front, ({ s with overrides := front }).table = .ok (overlaid file front) :=
    fun front => table_eq_overlaid read parsed
  simp only [loaded, Except.ok.injEq]

def dottedText : String := "k.x=''"

def ofDotted (overrides : List Toml.Value) : Source where
  path := "receiver.toml"
  content := .ok (Text.encode dottedText)
  overrides := overrides.map fun v => [("k", v)]

def blankUnder (key : String) : Toml.Table := [(key, .leaf (.string ""))]

theorem get?_blankUnder_ne_table (key other : String) (t : Toml.Table) :
    Toml.Entries.get? other (blankUnder key) ≠ some (.table t) := by
  simp only [blankUnder, Toml.Entries.get?]
  split <;> simp

theorem distinct_blankUnder (key : String) : Toml.Distinct (blankUnder key) :=
  ⟨by simp [blankUnder, Toml.Entries.keys],
    fun other below held => absurd held (get?_blankUnder_ne_table key other below)⟩

theorem not_clash_blankUnder (key : String) (earlier later : Toml.Table) :
    ¬ Toml.Clash (blankUnder key) earlier later := by
  intro clash
  cases clash with
  | here filed | inside filed => exact get?_blankUnder_ne_table _ _ _ filed

theorem parsed_dotted :
    decodeToml (Toml.decodeTable .text) dottedText = .ok [("k", .table (blankUnder "x"))] := by
  cbv

theorem text_ofDotted (overrides : List Toml.Value) : (ofDotted overrides).text = .ok dottedText := by
  have decoded : Text.decode? (Text.encode dottedText) = some dottedText := by cbv
  simp only [text, ofDotted, Except.mapError, bind, Except.bind, decoded]

theorem distinct_dotted {v : Toml.Value} (inside : ∀ below, v = .table below → Toml.Distinct below) :
    Toml.Distinct [("k", v)] := by
  refine ⟨by simp [Toml.Entries.keys], fun key below held => ?_⟩
  simp only [Toml.Entries.get?] at held
  split at held
  · exact inside below (Option.some.inj held)
  · cases held

/-- Two overrides that both set `k` to a table. -/
theorem overrides_in_order_of_tables :
    (ofDotted [.table (blankUnder "y"), .table (blankUnder "z")]).table =
      .ok [("k", .table [("x", .leaf (.string "")), ("y", .leaf (.string "")),
        ("z", .leaf (.string ""))])] := by
  have distinct : ∀ o ∈ (ofDotted [.table (blankUnder "y"), .table (blankUnder "z")]).overrides,
      Toml.Distinct o := by
    have each : ∀ key, Toml.Distinct [("k", .table (blankUnder key))] := by
      refine fun key => distinct_dotted fun below same => ?_
      exact Toml.Tree.table.inj same ▸ distinct_blankUnder key
    simp [ofDotted, each]
  refine (overrides_in_order_iff (text_ofDotted _) parsed_dotted distinct).2 ?_ _ [] rfl
  intro front override back joined split hj clash
  -- the first override stands alone before the second one
  obtain ⟨first, rfl⟩ : ∃ first, front = [first] := by
    match front, split with
    | [], _ => cases hj
    | [first], _ => exact ⟨first, rfl⟩
    | _ :: _ :: _, split => simp [ofDotted] at split
  simp only [ofDotted, List.map_cons, List.map_nil, List.cons_append, List.nil_append, List.cons.injEq]
    at split
  obtain ⟨rfl, rfl, -⟩ := split
  obtain rfl := Option.some.inj hj
  cases clash with
  | here _ replaced plain =>
    simp only [List.foldl_nil, Toml.Entries.get?] at replaced
    split at replaced
    · exact plain _ (Option.some.inj replaced).symm
    · cases replaced
  | inside filed _ _ deeper =>
    simp only [Toml.Entries.get?] at filed
    split at filed
    · cases filed
      exact not_clash_blankUnder _ _ _ deeper
    · cases filed

/-- The table of the file is set to a text and then to a table. -/
theorem restored_table_is_mixed :
    (ofDotted [.leaf (.string ""), .table (blankUnder "y")]).table =
      .ok [("k", .table [("x", .leaf (.string "")), ("y", .leaf (.string ""))])] ∧
    (ofDotted [.leaf (.string ""), .table (blankUnder "y")]).overrides.foldl Toml.mergeOver
        [("k", .table (blankUnder "x"))] = [("k", .table (blankUnder "y"))] :=
  ⟨table_eq_overlaid (text_ofDotted _) parsed_dotted, rfl⟩

end Source

end LogIntake
