import LogIntake.Settings.Basic
import Mathlib

/-!
Values that are kept before they are read. A table is read from a text first with every value kept as it
is, and settings are read from the kept values later. For each reader it is said which values it takes
from a text in this way, and what it makes of them, in terms of what it makes of them straight from the
text. A date that was kept is read as a string; a number without room in a scalar cannot be kept.
-/
namespace LogIntake.Toml

/-! ### Leaves, arrays and tables -/

section Trees

variable {α β : Type}

theorem bindItems_eq_map (f : α → Tree β) (items : List (Tree α)) :
    bindItems f items = items.map (Tree.bind f) := by
  induction items with
  | nil => rfl
  | cons t rest ih => rw [bindItems, ih, List.map_cons]

@[simp] theorem Tree.map_leaf (f : α → β) (a : α) : (Tree.leaf a).map f = .leaf (f a) := rfl

@[simp] theorem Tree.map_array (f : α → β) (items : List (Tree α)) :
    (Tree.array items).map f = .array (items.map (Tree.map f)) :=
  congrArg Tree.array (bindItems_eq_map _ items)

@[simp] theorem Tree.map_table (f : α → β) (entries : Entries α) :
    (Tree.table entries).map f = .table (mapEntries f entries) := rfl

@[simp] theorem mapEntries_nil (f : α → β) : mapEntries f [] = [] := rfl

@[simp] theorem mapEntries_cons (f : α → β) (e : String × Tree α) (rest : Entries α) :
    mapEntries f (e :: rest) = (e.1, e.2.map f) :: mapEntries f rest := rfl

@[simp] theorem keys_mapEntries (f : α → β) (entries : Entries α) :
    Entries.keys (mapEntries f entries) = Entries.keys entries := by
  induction entries with
  | nil => rfl
  | cons e rest ih => simpa [Entries.keys] using ih

end Trees

variable {α σ : Type}

@[simp] theorem fail_ne_ok (fault : DecodeFault) (a : α) : fail fault ≠ .ok a := nofun

@[simp] theorem refuse_ne_ok (source : Source) (expected : String) (t : Tree Literal) (a : α) :
    refuse source expected t ≠ .ok a := by
  simp [refuse, bind_eq_ok_iff]

@[simp] theorem under_eq_ok_iff {key : String} {x : Except DecodeError α} {a : α} :
    under key x = .ok a ↔ x = .ok a := by
  cases x <;> simp [under]

/-! ### Keeping a value -/

/-- The first key is the one under which a date shows its parts. -/
def startsAsDate (entries : Entries α) : Bool := (Entries.keys entries).head? == some datetimeKey

theorem startsAsDate_congr {β : Type} {entries : Entries α} {others : Entries β}
    (h : Entries.keys entries = Entries.keys others) : startsAsDate entries = startsAsDate others := by
  rw [startsAsDate, startsAsDate, h]

theorem datetimeOf?_of_not_starts {entries : Entries Literal} (h : startsAsDate entries = false)
    (source : Source) : datetimeOf? source entries = none := by
  cases entries with
  | nil => rfl
  | cons e rest =>
    have other : e.1 ≠ datetimeKey := by simpa [startsAsDate, Entries.keys] using h
    simp [datetimeOf?, other]

/-- A date, or a table that can only be kept as one. -/
def isDated : Tree Literal → Bool
  | .leaf (.scalar (.datetime _)) => true
  | .table entries => startsAsDate entries
  | _ => false

def hasRoom : Tree Literal → Bool
  | .leaf (.wide _) => false
  | _ => true

def Scalar.undated : Scalar → Scalar
  | .datetime d => .string (String.ofList d.text)
  | s => s

theorem plainLeaf_text (s : Scalar) : plainLeaf .text (.scalar s) = .ok s := by
  cases s <;> rfl

theorem plainLeaf_memory (s : Scalar) : plainLeaf .memory (.scalar s) = .ok s.undated := by
  cases s <;> rfl

theorem plainLeaf_wide_ne_ok (source : Source) (n : Int) (s : Scalar) :
    plainLeaf source (.wide n) ≠ .ok s := by
  simp only [plainLeaf, ne_eq, bind_eq_ok_iff, not_exists, not_and]
  intro f _
  split <;> simp

@[simp] theorem keepTree_scalar (s : Scalar) : keepTree .text (.leaf (.scalar s)) = .ok (.leaf s) := by
  rw [keepTree, plainLeaf_text]
  rfl

@[simp] theorem keepTree_wide_ne_ok (source : Source) (n : Int) (v : Value) :
    keepTree source (.leaf (.wide n)) ≠ .ok v := by
  simp only [keepTree, ne_eq, map_eq_ok_iff, not_exists, not_and]
  exact fun s h => absurd h (plainLeaf_wide_ne_ok source n s)

@[simp] theorem keepTree_huge_ne_ok (source : Source) (v : Value) :
    keepTree source (.leaf .huge) ≠ .ok v := by
  simp [keepTree, plainLeaf, fail, Except.map]

theorem keepTree_array_eq_ok_iff {source : Source} {items : List (Tree Literal)} {v : Value} :
    keepTree source (.array items) = .ok v ↔
      ∃ vs, keepItems source items = .ok vs ∧ .array vs = v := by
  simp only [keepTree, map_eq_ok_iff]

theorem keepTree_table_eq_ok_iff {source : Source} {entries : Entries Literal} {v : Value}
    (h : startsAsDate entries = false) :
    keepTree source (.table entries) = .ok v ↔
      ∃ kept, keepEntries source entries = .ok kept ∧ .table kept = v := by
  simp only [keepTree, datetimeOf?_of_not_starts h, map_eq_ok_iff]

/-- A table that starts as a date is kept as a date or not at all. -/
theorem isDate_of_keepTree {source : Source} {entries : Entries Literal} {v : Value}
    (h : startsAsDate entries = true) (kept : keepTree source (.table entries) = .ok v) :
    ∃ d, v = .leaf (.datetime d) := by
  cases entries with
  | nil => cases h
  | cons e rest =>
    have first : e.1 = datetimeKey := by simpa [startsAsDate, Entries.keys] using h
    simp only [keepTree, datetimeOf?, first, if_true, map_eq_ok_iff] at kept
    obtain ⟨d, -, rfl⟩ := kept
    exact ⟨d, rfl⟩

theorem keepItems_cons_eq_ok_iff {source : Source} {t : Tree Literal} {rest : List (Tree Literal)}
    {vs : List Value} :
    keepItems source (t :: rest) = .ok vs ↔
      ∃ v, keepTree source t = .ok v ∧ ∃ more, keepItems source rest = .ok more ∧ v :: more = vs := by
  simp only [keepItems, bind_eq_ok_iff, Except.ok.injEq]

theorem keepEntries_cons_eq_ok_iff {source : Source} {e : String × Tree Literal}
    {rest : Entries Literal} {kept : Table} :
    keepEntries source (e :: rest) = .ok kept ↔
      ∃ v, keepTree source e.2 = .ok v ∧
        ∃ more, keepEntries source rest = .ok more ∧ (e.1, v) :: more = kept := by
  simp only [keepEntries, bind_eq_ok_iff, under_eq_ok_iff, Except.ok.injEq]

theorem keys_of_keepEntries {source : Source} {entries : Entries Literal} {kept : Table}
    (h : keepEntries source entries = .ok kept) : Entries.keys kept = Entries.keys entries := by
  induction entries generalizing kept with
  | nil =>
    cases h
    rfl
  | cons e rest ih =>
    obtain ⟨v, -, more, hm, rfl⟩ := keepEntries_cons_eq_ok_iff.1 h
    simpa [Entries.keys] using ih hm

/-- Tables that were kept as tables are not taken for dates later. -/
theorem not_starts_of_keepEntries {source : Source} {entries : Entries Literal} {kept : Table}
    (h : startsAsDate entries = false) (hk : keepEntries source entries = .ok kept) :
    startsAsDate (mapEntries Literal.scalar kept) = false := by
  rwa [startsAsDate_congr ((keys_mapEntries _ _).trans (keys_of_keepEntries hk))]

mutual

/-- Kept once more, a value changes its dates alone. -/
theorem keepTree_again {source : Source} : ∀ {t : Tree Literal} {v : Value},
    keepTree source t = .ok v → keepTree .memory (v.map .scalar) = .ok (v.map Scalar.undated)
  | .leaf (.scalar s), v, h => by
    obtain ⟨a, -, rfl⟩ := map_eq_ok_iff.1 h
    rw [Tree.map_leaf, Tree.map_leaf, keepTree, plainLeaf_memory]
    rfl
  | .leaf (.wide n), v, h => absurd h (keepTree_wide_ne_ok _ n v)
  | .leaf .huge, v, h => absurd h (keepTree_huge_ne_ok _ v)
  | .array items, v, h => by
    obtain ⟨vs, hvs, rfl⟩ := keepTree_array_eq_ok_iff.1 h
    rw [Tree.map_array, Tree.map_array, keepTree, keepItems_again hvs]
    rfl
  | .table entries, v, h => by
    -- a table becomes a date the first time or never, as its keys stay
    cases hd : startsAsDate entries with
    | true =>
      obtain ⟨d, rfl⟩ := isDate_of_keepTree hd h
      rfl
    | false =>
      obtain ⟨kept, hk, rfl⟩ := (keepTree_table_eq_ok_iff hd).1 h
      exact (keepTree_table_eq_ok_iff (not_starts_of_keepEntries hd hk)).2
        ⟨_, keepEntries_again hk, rfl⟩

theorem keepItems_again {source : Source} : ∀ {items : List (Tree Literal)} {vs : List Value},
    keepItems source items = .ok vs →
      keepItems .memory (vs.map (Tree.map .scalar)) = .ok (vs.map (Tree.map Scalar.undated))
  | [], _, h => by
    cases h
    rfl
  | t :: rest, vs, h => by
    obtain ⟨v, hv, more, hm, rfl⟩ := keepItems_cons_eq_ok_iff.1 h
    exact keepItems_cons_eq_ok_iff.2 ⟨_, keepTree_again hv, _, keepItems_again hm, rfl⟩

theorem keepEntries_again {source : Source} : ∀ {entries : Entries Literal} {kept : Table},
    keepEntries source entries = .ok kept →
      keepEntries .memory (mapEntries .scalar kept) = .ok (mapEntries Scalar.undated kept)
  | [], _, h => by
    cases h
    rfl
  | (k, t) :: rest, kept, h => by
    obtain ⟨v, hv, more, hm, rfl⟩ := keepEntries_cons_eq_ok_iff.1 h
    exact keepEntries_cons_eq_ok_iff.2 ⟨_, keepTree_again hv, _, keepEntries_again hm, rfl⟩

end

/-! ### Values without dates -/

mutual

/-- No date, and no table that can only be kept as one, anywhere inside. -/
def Tree.dateFree : Tree Literal → Bool
  | .leaf (.scalar (.datetime _)) => false
  | .leaf _ => true
  | .array items => itemsDateFree items
  | .table entries => !startsAsDate entries && entriesDateFree entries

def itemsDateFree : List (Tree Literal) → Bool
  | [] => true
  | t :: rest => t.dateFree && itemsDateFree rest

def entriesDateFree : Entries Literal → Bool
  | [] => true
  | (_, t) :: rest => t.dateFree && entriesDateFree rest

end

mutual

theorem undated_eq_self_iff : ∀ {t : Tree Literal} {v : Value}, keepTree .text t = .ok v →
    (v.map Scalar.undated = v ↔ t.dateFree = true)
  | .leaf (.scalar s), v, h => by
    obtain rfl : Tree.leaf s = v := by simpa using h
    cases s <;> simp [Scalar.undated, Tree.dateFree]
  | .leaf (.wide n), v, h => absurd h (keepTree_wide_ne_ok _ n v)
  | .leaf .huge, v, h => absurd h (keepTree_huge_ne_ok _ v)
  | .array items, v, h => by
    obtain ⟨vs, hvs, rfl⟩ := keepTree_array_eq_ok_iff.1 h
    rw [Tree.map_array, Tree.array.injEq, itemsUndated_eq_self_iff hvs, Tree.dateFree]
  | .table entries, v, h => by
    cases hd : startsAsDate entries with
    | true =>
      obtain ⟨d, rfl⟩ := isDate_of_keepTree hd h
      simp [Scalar.undated, Tree.dateFree, hd]
    | false =>
      obtain ⟨kept, hk, rfl⟩ := (keepTree_table_eq_ok_iff hd).1 h
      rw [Tree.map_table, Tree.table.injEq, entriesUndated_eq_self_iff hk, Tree.dateFree, hd]
      simp

theorem itemsUndated_eq_self_iff : ∀ {items : List (Tree Literal)} {vs : List Value},
    keepItems .text items = .ok vs →
      (vs.map (Tree.map Scalar.undated) = vs ↔ itemsDateFree items = true)
  | [], _, h => by
    cases h
    simp [itemsDateFree]
  | t :: rest, vs, h => by
    obtain ⟨v, hv, more, hm, rfl⟩ := keepItems_cons_eq_ok_iff.1 h
    rw [List.map_cons, List.cons.injEq, undated_eq_self_iff hv, itemsUndated_eq_self_iff hm,
      itemsDateFree, Bool.and_eq_true]

theorem entriesUndated_eq_self_iff : ∀ {entries : Entries Literal} {kept : Table},
    keepEntries .text entries = .ok kept →
      (mapEntries Scalar.undated kept = kept ↔ entriesDateFree entries = true)
  | [], _, h => by
    cases h
    simp [entriesDateFree]
  | (k, t) :: rest, kept, h => by
    obtain ⟨v, hv, more, hm, rfl⟩ := keepEntries_cons_eq_ok_iff.1 h
    rw [mapEntries_cons, List.cons.injEq, Prod.mk.injEq, undated_eq_self_iff hv,
      entriesUndated_eq_self_iff hm, entriesDateFree, Bool.and_eq_true]
    simp

end

/-! ### Readers of kept values -/

abbrev Reads (α : Type) := Source → Tree Literal → Except DecodeError α

/-- What a reader makes of a value of a text that was kept before. -/
def readKept (read : Reads α) (t : Tree Literal) : Except DecodeError α := do
  let v ← keepTree .text t
  read .memory (v.map .scalar)

/-- Kept before, the values that fit are read as they are straight from the text, once they are written
as `write` says and up to a change of the outcome; no others are read. -/
def Carries (read : Reads α) (fits : Tree Literal → Bool) (write : Tree Literal → Tree Literal)
    (change : α → α) : Prop :=
  ∀ t a, readKept read t = .ok a ↔ fits t = true ∧ ∃ b, read .text (write t) = .ok b ∧ change b = a

section Kept

variable {read : Reads α} {a : α}

theorem readKept_scalar (s : Scalar) :
    readKept read (.leaf (.scalar s)) = read .memory (.leaf (.scalar s)) := by
  simp [readKept, bind, Except.bind]

theorem readKept_wide_ne_ok (n : Int) : readKept read (.leaf (.wide n)) ≠ .ok a := by
  simp [readKept, bind_eq_ok_iff]

theorem readKept_huge_ne_ok : readKept read (.leaf .huge) ≠ .ok a := by
  simp [readKept, bind_eq_ok_iff]

theorem readKept_array_eq_ok_iff {items : List (Tree Literal)} :
    readKept read (.array items) = .ok a ↔
      ∃ vs, keepItems .text items = .ok vs ∧
        read .memory (.array (vs.map (Tree.map .scalar))) = .ok a := by
  simp [readKept, bind_eq_ok_iff, keepTree_array_eq_ok_iff]

theorem readKept_table_eq_ok_iff {entries : Entries Literal} (h : startsAsDate entries = false) :
    readKept read (.table entries) = .ok a ↔
      ∃ kept, keepEntries .text entries = .ok kept ∧
        read .memory (.table (mapEntries .scalar kept)) = .ok a := by
  simp [readKept, bind_eq_ok_iff, keepTree_table_eq_ok_iff h]

/-- A table that starts as a date is refused by those who refuse dates. -/
theorem readKept_dated_ne_ok {entries : Entries Literal} (h : startsAsDate entries = true)
    (date : ∀ d, read .memory (.leaf (.scalar (.datetime d))) ≠ .ok a) :
    readKept read (.table entries) ≠ .ok a := by
  intro ok
  obtain ⟨v, hv, hr⟩ := bind_eq_ok_iff.1 ok
  obtain ⟨d, rfl⟩ := isDate_of_keepTree h hv
  exact date d hr

theorem readKept_table_ne_ok (entries : Entries Literal)
    (date : ∀ d, read .memory (.leaf (.scalar (.datetime d))) ≠ .ok a)
    (table : ∀ entries, read .memory (.table entries) ≠ .ok a) :
    readKept read (.table entries) ≠ .ok a := by
  cases hd : startsAsDate entries with
  | true => exact readKept_dated_ne_ok hd date
  | false =>
    intro ok
    obtain ⟨kept, -, hr⟩ := (readKept_table_eq_ok_iff hd).1 ok
    exact table _ hr

end Kept

/-! ### Numbers and texts -/

/-- A reader that takes scalars alone, the same ones from a text and from memory, and no dates. -/
theorem Carries.of_scalars {read : Reads α}
    (same : ∀ s a, read .memory (.leaf (.scalar s)) = .ok a ↔ read .text (.leaf (.scalar s)) = .ok a)
    (date : ∀ d a, read .memory (.leaf (.scalar (.datetime d))) ≠ .ok a)
    (huge : ∀ a, read .text (.leaf .huge) ≠ .ok a)
    (array : ∀ source items a, read source (.array items) ≠ .ok a)
    (table : ∀ source entries a, read source (.table entries) ≠ .ok a) :
    Carries read hasRoom id id := by
  intro t a
  cases t with
  | leaf l =>
    cases l with
    | scalar s => simp [readKept_scalar, hasRoom, same]
    | wide n => simp [readKept_wide_ne_ok, hasRoom]
    | huge => simp [readKept_huge_ne_ok, huge]
  | array items => simp [readKept_array_eq_ok_iff, array]
  | table entries =>
    have refused : readKept read (.table entries) ≠ .ok a :=
      readKept_table_ne_ok entries (fun d => date d a) fun _ => table _ _ a
    simp [refused, table]

theorem decodeNatural_carries (expected : String) (bound : Nat) :
    Carries (decodeNatural expected bound) hasRoom id id := by
  refine .of_scalars (fun s a => ?_) ?_ ?_ ?_ ?_
  · cases s <;> simp [decodeNatural]
  all_goals simp [decodeNatural]

theorem decodeText_eq_ok_iff {expected s : String} {source : Source} {t : Tree Literal} :
    decodeText expected source t = .ok s ↔ text? source t = some s := by
  rw [decodeText]
  split
  · next h => simp [h]
  · next h => simp [h]

theorem decodeParsed_eq_ok_iff {expected : String} {read : String → Except DecodeFault α}
    {source : Source} {t : Tree Literal} {a : α} :
    decodeParsed expected read source t = .ok a ↔
      ∃ s, text? source t = some s ∧ read s = .ok a := by
  simp only [decodeParsed, bind_eq_ok_iff, decodeText_eq_ok_iff]
  refine exists_congr fun s => and_congr_right fun _ => ?_
  cases read s <;> simp

theorem decodeParsed_carries (expected : String) {read : String → Except DecodeFault α}
    (date : ∀ d a, read (String.ofList (Datetime.text d)) ≠ .ok a) :
    Carries (decodeParsed expected read) hasRoom id id := by
  refine .of_scalars (fun s a => ?_) (fun d a => ?_) ?_ ?_ ?_
  · cases s <;> simp [decodeParsed_eq_ok_iff, text?, date]
  · simp [decodeParsed_eq_ok_iff, text?, date]
  all_goals simp [decodeParsed_eq_ok_iff, text?]

/-- A value that is kept as a date, written as the text of the date. -/
def quoted (t : Tree Literal) : Tree Literal :=
  match keepTree .text t with
  | .ok (.leaf (.datetime d)) => .leaf (.scalar (.string (String.ofList d.text)))
  | _ => t

theorem quoted_of_not_isDated {t : Tree Literal} (h : isDated t = false) : quoted t = t := by
  rw [quoted]
  split
  · next d kept =>
    cases t with
    | leaf l =>
      cases l with
      | scalar s =>
        obtain rfl : s = .datetime d := by simpa using kept
        cases h
      | wide n => exact absurd kept (keepTree_wide_ne_ok _ n _)
      | huge => exact absurd kept (keepTree_huge_ne_ok _ _)
    | array items =>
      obtain ⟨_, _, other⟩ := keepTree_array_eq_ok_iff.1 kept
      cases other
    | table entries =>
      obtain ⟨_, _, other⟩ := (keepTree_table_eq_ok_iff h).1 kept
      cases other
  · rfl

/-- A text may be a date that was kept: it is read as if it had been written in quotes. -/
theorem decodeText_carries (expected : String) :
    Carries (decodeText expected) hasRoom quoted id := by
  intro t a
  simp only [decodeText_eq_ok_iff, id_eq, exists_eq_right]
  cases t with
  | leaf l =>
    cases l with
    | scalar s =>
      rw [readKept_scalar, decodeText_eq_ok_iff, quoted, keepTree_scalar]
      cases s <;> simp [text?, hasRoom]
    | wide n => simp [readKept_wide_ne_ok, hasRoom]
    | huge =>
      rw [quoted_of_not_isDated rfl]
      simp [readKept_huge_ne_ok, text?]
  | array items =>
    rw [quoted_of_not_isDated rfl]
    simp [readKept_array_eq_ok_iff, decodeText_eq_ok_iff, text?]
  | table entries =>
    cases hd : startsAsDate entries with
    | false =>
      rw [quoted_of_not_isDated (t := .table entries) hd]
      simp [readKept_table_eq_ok_iff hd, decodeText_eq_ok_iff, text?]
    | true =>
      cases hk : keepTree .text (.table entries) with
      | error e => simp [readKept, quoted, hk, text?, bind, Except.bind]
      | ok v =>
        obtain ⟨d, rfl⟩ := isDate_of_keepTree hd hk
        simp [readKept, quoted, hk, text?, bind, Except.bind, decodeText_eq_ok_iff, hasRoom]

/-! ### Variants -/

def Tree.isEmpty : Tree α → Bool
  | .array [] => true
  | .table [] => true
  | _ => false

theorem decodeVariant_table_eq_ok_iff {variants : List (String × α)} {source : Source}
    {entries : Entries Literal} {a : α} :
    decodeVariant variants source (.table entries) = .ok a ↔
      ∃ key content, entries = [(key, content)] ∧ variants.lookup key = some a ∧
        content.isEmpty = true := by
  match entries with
  | [] => simp [decodeVariant]
  | _ :: _ :: _ => simp [decodeVariant]
  | [(key, content)] =>
    have single : (∃ key' content', [(key, content)] = [(key', content')] ∧
        variants.lookup key' = some a ∧ content'.isEmpty = true) ↔
          variants.lookup key = some a ∧ content.isEmpty = true := by
      constructor
      · rintro ⟨_, _, same, h⟩
        cases same
        exact h
      · exact fun h => ⟨key, content, rfl, h⟩
    rw [single]
    simp only [decodeVariant, ne_eq, not_true_eq_false, if_false, bind_eq_ok_iff]
    cases variants.lookup key with
    | none => simp
    | some b =>
      match content with
      | .table [] | .array [] => simp [Tree.isEmpty]
      | .table (_ :: _) | .array (_ :: _) => simp [Tree.isEmpty]
      | .leaf (.scalar _) | .leaf (.wide _) | .leaf .huge => simp [Tree.isEmpty]

theorem isEmpty_kept {t : Tree Literal} {v : Value} (h : keepTree .text t = .ok v) :
    (v.map Literal.scalar).isEmpty = t.isEmpty := by
  match t with
  | .leaf (.scalar s) =>
    obtain rfl : Tree.leaf s = v := by simpa using h
    rfl
  | .leaf (.wide n) => exact absurd h (keepTree_wide_ne_ok _ n v)
  | .leaf .huge => exact absurd h (keepTree_huge_ne_ok _ v)
  | .array [] | .table [] =>
    cases h
    rfl
  | .array (_ :: _) =>
    obtain ⟨_, hi, rfl⟩ := keepTree_array_eq_ok_iff.1 h
    obtain ⟨_, _, _, _, rfl⟩ := keepItems_cons_eq_ok_iff.1 hi
    rfl
  | .table (e :: rest) =>
    cases hd : startsAsDate (e :: rest) with
    | true =>
      obtain ⟨d, rfl⟩ := isDate_of_keepTree hd h
      rfl
    | false =>
      obtain ⟨_, hk, rfl⟩ := (keepTree_table_eq_ok_iff hd).1 h
      obtain ⟨_, _, _, _, rfl⟩ := keepEntries_cons_eq_ok_iff.1 hk
      rfl

theorem exists_kept_of_isEmpty {t : Tree Literal} (h : t.isEmpty = true) :
    ∃ v, keepTree .text t = .ok v := by
  match t with
  | .array [] | .table [] => exact ⟨_, rfl⟩

theorem keepEntries_eq_singleton {entries : Entries Literal} {kept : Table} {key : String}
    {content : Tree Literal} (h : keepEntries .text entries = .ok kept)
    (one : mapEntries Literal.scalar kept = [(key, content)]) :
    ∃ t v, entries = [(key, t)] ∧ keepTree .text t = .ok v ∧ v.map .scalar = content := by
  match entries with
  | [] =>
    cases h
    cases one
  | [(k, t)] =>
    obtain ⟨v, hv, _, hm, rfl⟩ := keepEntries_cons_eq_ok_iff.1 h
    cases hm
    cases one
    exact ⟨t, v, rfl, hv, rfl⟩
  | _ :: _ :: _ =>
    obtain ⟨_, _, _, hm, rfl⟩ := keepEntries_cons_eq_ok_iff.1 h
    obtain ⟨_, _, _, _, rfl⟩ := keepEntries_cons_eq_ok_iff.1 hm
    cases one

/-- A name stays the same name, alone or as the key of an empty table. -/
theorem decodeVariant_carries {variants : List (String × α)}
    (h : variants.lookup datetimeKey = none) : Carries (decodeVariant variants) hasRoom id id := by
  intro t a
  simp only [id_eq, exists_eq_right]
  cases t with
  | leaf l =>
    cases l with
    | scalar s =>
      rw [readKept_scalar]
      cases s <;> simp [decodeVariant, hasRoom]
    | wide n => simp [readKept_wide_ne_ok, hasRoom]
    | huge => simp [readKept_huge_ne_ok, decodeVariant]
  | array items => simp [readKept_array_eq_ok_iff, decodeVariant]
  | table entries =>
    have plain : hasRoom (.table entries) = true := rfl
    rw [plain, decodeVariant_table_eq_ok_iff]
    constructor
    · intro ok
      cases hd : startsAsDate entries with
      | true => exact absurd ok (readKept_dated_ne_ok hd fun d => by simp [decodeVariant])
      | false =>
        obtain ⟨kept, hk, hr⟩ := (readKept_table_eq_ok_iff hd).1 ok
        obtain ⟨key, content, one, named, empty⟩ := decodeVariant_table_eq_ok_iff.1 hr
        obtain ⟨t, v, rfl, hv, rfl⟩ := keepEntries_eq_singleton hk one
        exact ⟨rfl, key, t, rfl, named, (isEmpty_kept hv).symm.trans empty⟩
    · rintro ⟨-, key, content, rfl, named, empty⟩
      have other : startsAsDate [(key, content)] = false := by
        have ne : key ≠ datetimeKey := by
          rintro rfl
          exact absurd (h.symm.trans named) nofun
        simpa [startsAsDate, Entries.keys] using ne
      obtain ⟨v, hv⟩ := exists_kept_of_isEmpty empty
      refine (readKept_table_eq_ok_iff other).2 ⟨[(key, v)], ?_, ?_⟩
      · exact keepEntries_cons_eq_ok_iff.2 ⟨v, hv, [], rfl, rfl⟩
      · exact decodeVariant_table_eq_ok_iff.2 ⟨key, _, rfl, named, (isEmpty_kept hv).trans empty⟩

/-! ### Tables and sequences -/

theorem decodeTable_carries :
    Carries decodeTable (fun t => !isDated t) id (mapEntries Scalar.undated) := by
  intro t a
  match t with
  | .leaf (.scalar s) =>
    rw [readKept_scalar]
    cases s <;> simp [decodeTable, entries?, isDated]
  | .leaf (.wide n) => simp [readKept_wide_ne_ok, decodeTable, entries?]
  | .leaf .huge => simp [readKept_huge_ne_ok, decodeTable, entries?]
  | .array items => simp [readKept_array_eq_ok_iff, decodeTable, entries?]
  | .table entries =>
    cases hd : startsAsDate entries with
    | true =>
      have refused : readKept decodeTable (.table entries) ≠ .ok a :=
        readKept_dated_ne_ok hd fun d => refuse_ne_ok _ _ _ _
      simp [refused, isDated, hd]
    | false =>
      rw [readKept_table_eq_ok_iff hd]
      simp only [isDated, hd, Bool.not_false, true_and, decodeTable, entries?, id_eq]
      refine exists_congr fun kept => and_congr_right fun hk => ?_
      rw [keepEntries_again hk, Except.ok.injEq]

def itemsFit (fits : Tree Literal → Bool) : Tree Literal → Bool
  | .array items => items.all fits
  | _ => true

section Sequences

variable {read : Reads α} {fits : Tree Literal → Bool} {change : α → α}

theorem decodeItems_kept_iff (h : Carries read fits id change) {items : List (Tree Literal)}
    {as : List α} :
    (∃ vs, keepItems .text items = .ok vs ∧
        decodeItems (read .memory) (vs.map (Tree.map .scalar)) = .ok as) ↔
      items.all fits = true ∧ ∃ bs, decodeItems (read .text) items = .ok bs ∧ bs.map change = as := by
  induction items generalizing as with
  | nil => simp [keepItems, decodeItems]
  | cons t rest ih =>
    simp only [decodeItems, bind_eq_ok_iff, Except.ok.injEq, List.all_cons, Bool.and_eq_true]
    constructor
    · rintro ⟨_, kept, hr⟩
      obtain ⟨v, hv, vs, hvs, rfl⟩ := keepItems_cons_eq_ok_iff.1 kept
      obtain ⟨a, ha, more, hm, rfl⟩ := by
        simpa only [List.map_cons, decodeItems, bind_eq_ok_iff, Except.ok.injEq] using hr
      obtain ⟨ht, b, hb, rfl⟩ := (h t a).1 (bind_eq_ok_iff.2 ⟨v, hv, ha⟩)
      obtain ⟨hrest, bs, hbs, rfl⟩ := ih.1 ⟨vs, hvs, hm⟩
      exact ⟨⟨ht, hrest⟩, _, ⟨b, hb, bs, hbs, rfl⟩, rfl⟩
    · rintro ⟨⟨ht, hrest⟩, _, ⟨b, hb, bs, hbs, rfl⟩, rfl⟩
      obtain ⟨v, hv, ha⟩ := bind_eq_ok_iff.1 ((h t _).2 ⟨ht, b, hb, rfl⟩)
      obtain ⟨vs, hvs, hm⟩ := ih.2 ⟨hrest, bs, hbs, rfl⟩
      refine ⟨v :: vs, keepItems_cons_eq_ok_iff.2 ⟨v, hv, vs, hvs, rfl⟩, ?_⟩
      simp only [List.map_cons, decodeItems, bind_eq_ok_iff, Except.ok.injEq]
      exact ⟨_, ha, _, hm, rfl⟩

theorem Carries.sequence (h : Carries read fits id change) :
    Carries (fun source => decodeSequence (read source) source) (itemsFit fits) id
      (List.map change) := by
  intro t as
  match t with
  | .leaf (.scalar s) => simp [readKept_scalar, decodeSequence]
  | .leaf (.wide n) => simp [readKept_wide_ne_ok, decodeSequence]
  | .leaf .huge => simp [readKept_huge_ne_ok, decodeSequence]
  | .array items =>
    rw [readKept_array_eq_ok_iff]
    exact decodeItems_kept_iff h
  | .table entries =>
    have refused : readKept (fun source => decodeSequence (read source) source) (.table entries) ≠
        .ok as :=
      readKept_table_ne_ok entries (fun _ => refuse_ne_ok _ _ _ _) fun _ => refuse_ne_ok _ _ _ _
    simp [refused, decodeSequence]

end Sequences

/-! ### Records -/

section Records

variable {fields : List (Field σ)} {fits : String → Tree Literal → Bool}
  {write : String → Tree Literal → Tree Literal} {change : σ → σ}

/-- What a field makes of a value that was kept before, on a record that is changed already. -/
def Field.Carries (f : Field σ) (fits : Tree Literal → Bool)
    (write : Tree Literal → Tree Literal) (change : σ → σ) : Prop :=
  ∀ t s s', readKept (fun source t => f.set source t (change s)) t = .ok s' ↔
    fits t = true ∧ ∃ r, f.set .text (write t) s = .ok r ∧ change r = s'

theorem Carries.field {read : Reads α} {fits : Tree Literal → Bool}
    {write : Tree Literal → Tree Literal} {changeValue : α → α}
    (h : Carries read fits write changeValue) (name : String) (absence : Absence)
    {store : α → σ → σ} (same : ∀ a s, store (changeValue a) (change s) = change (store a s)) :
    (Field.of name absence read store).Carries fits write change := by
  intro t s s'
  have split : readKept (fun source t => (Field.of name absence read store).set source t (change s)) t =
      .ok s' ↔ ∃ a, readKept read t = .ok a ∧ store a (change s) = s' := by
    simp only [readKept, Field.of, bind_eq_ok_iff, Except.ok.injEq]
    constructor
    · rintro ⟨v, hv, a, ha, rfl⟩
      exact ⟨a, ⟨v, hv, ha⟩, rfl⟩
    · rintro ⟨a, ⟨v, hv, ha⟩, rfl⟩
      exact ⟨v, hv, a, ha, rfl⟩
  rw [split]
  simp only [h t, Field.of, bind_eq_ok_iff, Except.ok.injEq]
  constructor
  · rintro ⟨_, ⟨ht, b, hb, rfl⟩, rfl⟩
    exact ⟨ht, _, ⟨b, hb, rfl⟩, (same b s).symm⟩
  · rintro ⟨ht, _, ⟨b, hb, rfl⟩, rfl⟩
    exact ⟨_, ⟨ht, b, hb, rfl⟩, same b s⟩

def rewritten (write : String → Tree Literal → Tree Literal) (entries : Entries Literal) :
    Entries Literal :=
  entries.map fun e => (e.1, write e.1 e.2)

theorem keys_rewritten (entries : Entries Literal) :
    Entries.keys (rewritten write entries) = Entries.keys entries := by
  simp [rewritten, Entries.keys]

theorem visitEntries_kept_iff
    (each : ∀ f ∈ fields, f.Carries (fits f.name) (write f.name) change)
    {entries : Entries Literal} {s s' : σ} :
    (∃ kept, keepEntries .text entries = .ok kept ∧
        visitEntries fields .memory (mapEntries .scalar kept) (change s) = .ok s') ↔
      (entries.all fun e => fits e.1 e.2) = true ∧
        ∃ r, visitEntries fields .text (rewritten write entries) s = .ok r ∧ change r = s' := by
  induction entries generalizing s with
  | nil => simp [keepEntries, visitEntries, rewritten]
  | cons e rest ih =>
    obtain ⟨key, t⟩ := e
    cases found : fields.find? (·.name = key) with
    | none =>
      simp only [keepEntries_cons_eq_ok_iff, rewritten, List.map_cons, visitEntries, found, fail_ne_ok,
        false_and, exists_false, and_false, iff_false, not_exists, not_and]
      rintro _ ⟨v, -, more, -, rfl⟩
      simp [visitEntries, found]
    | some f =>
      obtain rfl : f.name = key := by simpa using List.find?_some found
      have field := each f (List.mem_of_find?_eq_some found)
      simp only [keepEntries_cons_eq_ok_iff, rewritten, List.map_cons, visitEntries, found,
        bind_eq_ok_iff, under_eq_ok_iff, List.all_cons, Bool.and_eq_true]
      constructor
      · rintro ⟨_, ⟨v, hv, more, hm, rfl⟩, visited⟩
        obtain ⟨s₁, hs, hrest⟩ := by
          simpa only [mapEntries_cons, visitEntries, found, bind_eq_ok_iff, under_eq_ok_iff]
            using visited
        obtain ⟨ht, r₁, hr₁, rfl⟩ := (field t s s₁).1 (bind_eq_ok_iff.2 ⟨v, hv, hs⟩)
        obtain ⟨hall, r, hr, rfl⟩ := ih.1 ⟨more, hm, hrest⟩
        exact ⟨⟨ht, hall⟩, r, ⟨r₁, hr₁, hr⟩, rfl⟩
      · rintro ⟨⟨ht, hall⟩, r, ⟨r₁, hr₁, hr⟩, rfl⟩
        obtain ⟨v, hv, hs⟩ := bind_eq_ok_iff.1 ((field t s _).2 ⟨ht, r₁, hr₁, rfl⟩)
        obtain ⟨more, hm, hrest⟩ := ih.2 ⟨hall, r, hr, rfl⟩
        refine ⟨(f.name, v) :: more, ⟨v, hv, more, hm, rfl⟩, ?_⟩
        simp only [mapEntries_cons, visitEntries, found, bind_eq_ok_iff, under_eq_ok_iff]
        exact ⟨_, hs, hrest⟩

theorem missing?_congr {entries others : Entries Literal}
    (h : Entries.keys entries = Entries.keys others) :
    missing? fields entries = missing? fields others := by
  have same : ∀ name, Entries.has name entries = Entries.has name others := by
    intro name
    rw [Bool.eq_iff_iff, Entries.has_iff, Entries.has_iff, h]
  simp only [missing?, same]

theorem decodeRecord_table_eq_ok_iff {name : String} {start s : σ} {source : Source}
    {entries : Entries Literal} :
    decodeRecord name fields start source (.table entries) = .ok s ↔
      visitEntries fields source entries start = .ok s ∧ missing? fields entries = none := by
  simp only [decodeRecord, entries?, bind_eq_ok_iff]
  cases missing? fields entries <;> simp

theorem decodeRecord_kept_iff
    (each : ∀ f ∈ fields, f.Carries (fits f.name) (write f.name) change) {name : String}
    {entries : Entries Literal} {start s' : σ} :
    (∃ kept, keepEntries .text entries = .ok kept ∧
        decodeRecord name fields (change start) .memory (.table (mapEntries .scalar kept)) = .ok s') ↔
      (entries.all fun e => fits e.1 e.2) = true ∧
        ∃ r, decodeRecord name fields start .text (.table (rewritten write entries)) = .ok r ∧
          change r = s' := by
  simp only [decodeRecord_table_eq_ok_iff, missing?_congr (keys_rewritten entries)]
  constructor
  · rintro ⟨kept, hk, hv, hm⟩
    rw [missing?_congr ((keys_mapEntries _ kept).trans (keys_of_keepEntries hk))] at hm
    obtain ⟨hall, r, hr, rfl⟩ := (visitEntries_kept_iff each).1 ⟨kept, hk, hv⟩
    exact ⟨hall, r, ⟨hr, hm⟩, rfl⟩
  · rintro ⟨hall, r, ⟨hr, hm⟩, rfl⟩
    obtain ⟨kept, hk, hv⟩ := (visitEntries_kept_iff each).2 ⟨hall, r, hr, rfl⟩
    refine ⟨kept, hk, hv, ?_⟩
    rwa [missing?_congr ((keys_mapEntries _ kept).trans (keys_of_keepEntries hk))]

theorem rewritten_id (entries : Entries Literal) : rewritten (fun _ => id) entries = entries := by
  simp [rewritten]

theorem visitItems_kept_iff (each : ∀ f ∈ fields, f.Carries hasRoom id id) {name : String}
    {count index : Nat} {items : List (Tree Literal)} {s s' : σ} :
    (∃ vs, keepItems .text items = .ok vs ∧
        visitItems name count .memory index fields (vs.map (Tree.map .scalar)) s = .ok s') ↔
      items.length ≤ fields.length ∧ items.all hasRoom = true ∧
        visitItems name count .text index fields items s = .ok s' := by
  induction fields generalizing index items s with
  | nil =>
    cases items with
    | nil => simp [keepItems, visitItems]
    | cons t rest =>
      have surplus : ¬ (t :: rest).length ≤ ([] : List (Field σ)).length := by simp
      simp only [surplus, false_and, iff_false, not_exists, not_and]
      intro vs kept
      obtain ⟨v, -, more, -, rfl⟩ := keepItems_cons_eq_ok_iff.1 kept
      simp [visitItems]
  | cons f fields ih =>
    have rest := @ih fun g hg => each g (List.mem_cons_of_mem _ hg)
    cases items with
    | nil =>
      cases hf : decide (f.absence = .defaulted) with
      | false =>
        have required : f.absence ≠ .defaulted := by simpa using hf
        simp [keepItems, visitItems, required]
      | true =>
        have defaulted : f.absence = .defaulted := by simpa using hf
        simpa [keepItems, visitItems, defaulted] using @rest (index + 1) [] s
    | cons t items =>
      have field := each f List.mem_cons_self
      simp only [visitItems, bind_eq_ok_iff, List.length_cons, Nat.add_le_add_iff_right, List.all_cons,
        Bool.and_eq_true]
      constructor
      · rintro ⟨_, kept, visited⟩
        obtain ⟨v, hv, vs, hvs, rfl⟩ := keepItems_cons_eq_ok_iff.1 kept
        obtain ⟨s₁, hs, visited⟩ := by
          simpa only [List.map_cons, visitItems, bind_eq_ok_iff] using visited
        obtain ⟨ht, _, hr, rfl⟩ := (field t s s₁).1 (bind_eq_ok_iff.2 ⟨v, hv, hs⟩)
        obtain ⟨short, room, visited⟩ := rest.1 ⟨vs, hvs, visited⟩
        exact ⟨short, ⟨ht, room⟩, _, hr, visited⟩
      · rintro ⟨short, ⟨ht, room⟩, s₁, hs, visited⟩
        obtain ⟨v, hv, hs⟩ := bind_eq_ok_iff.1 ((field t s s₁).2 ⟨ht, s₁, hs, rfl⟩)
        obtain ⟨vs, hvs, visited⟩ := rest.2 ⟨short, room, visited⟩
        refine ⟨v :: vs, keepItems_cons_eq_ok_iff.2 ⟨v, hv, vs, hvs, rfl⟩, ?_⟩
        simp only [List.map_cons, visitItems, bind_eq_ok_iff]
        exact ⟨s₁, hs, visited⟩

/-- As many values as a record has fields at most, each one with room in a scalar. -/
def recordFits (count : Nat) : Tree Literal → Bool
  | .table entries => entries.all fun e => hasRoom e.2
  | .array items => decide (items.length ≤ count) && items.all hasRoom
  | .leaf _ => true

theorem decodeRecord_dated_ne_ok (noDate : ∀ f ∈ fields, f.name ≠ datetimeKey) {name : String}
    {start s : σ} {entries : Entries Literal} (h : startsAsDate entries = true) :
    decodeRecord name fields start .text (.table entries) ≠ .ok s := by
  intro ok
  cases entries with
  | nil => cases h
  | cons e rest =>
    obtain ⟨key, t⟩ := e
    obtain rfl : key = datetimeKey := by simpa [startsAsDate, Entries.keys] using h
    have unknown : fields.find? (·.name = datetimeKey) = none := by simpa using noDate
    have visited := (decodeRecord_table_eq_ok_iff.1 ok).1
    simp [visitEntries, unknown] at visited

theorem Carries.record (each : ∀ f ∈ fields, f.Carries hasRoom id id)
    (noDate : ∀ f ∈ fields, f.name ≠ datetimeKey) (name : String) (start : σ) :
    Carries (decodeRecord name fields start) (recordFits fields.length) id id := by
  -- in a text, a date is read as the table of its parts
  have date : ∀ d s, decodeRecord name fields start .text (.leaf (.scalar (.datetime d))) ≠ .ok s :=
    fun d s => @decodeRecord_dated_ne_ok _ _ noDate name start s
      [(datetimeKey, .leaf (.scalar (.string (String.ofList d.text))))] rfl
  intro t s
  simp only [id_eq, exists_eq_right]
  cases t with
  | leaf l =>
    cases l with
    | scalar a =>
      rw [readKept_scalar]
      cases a with
      | datetime d =>
        rw [eq_false (date d s)]
        simp [decodeRecord, entries?]
      | _ => simp [decodeRecord, entries?]
    | wide n => simp [readKept_wide_ne_ok, decodeRecord, entries?]
    | huge => simp [readKept_huge_ne_ok, decodeRecord, entries?]
  | array items =>
    rw [readKept_array_eq_ok_iff, recordFits, Bool.and_eq_true, decide_eq_true_eq, and_assoc]
    exact visitItems_kept_iff each
  | table entries =>
    cases hd : startsAsDate entries with
    | true =>
      have refused : readKept (decodeRecord name fields start) (.table entries) ≠ .ok s :=
        readKept_dated_ne_ok hd fun _ => refuse_ne_ok _ _ _ _
      simp [refused, decodeRecord_dated_ne_ok noDate hd]
    | false =>
      have kept := @decodeRecord_kept_iff σ fields (fun _ => hasRoom) (fun _ => id) id each name entries
        start s
      rw [readKept_table_eq_ok_iff hd]
      simpa [rewritten_id, recordFits] using kept

end Records

end LogIntake.Toml
