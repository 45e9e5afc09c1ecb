/-!
Maps keyed by text, kept in the byte order of their keys. Writing to a sorted row of members keeps
it sorted, so a map is known by what it answers and two maps with the same answers are equal.
-/
namespace LogIntake

namespace Members

/-- Writes a member into a row sorted by key, in place of one with the same key. -/
def insert {α : Type} (key : String) (value : α) : List (String × α) → List (String × α)
  | [] => [(key, value)]
  | (k, v) :: rest =>
    if key < k then (key, value) :: (k, v) :: rest
    else if key = k then (key, value) :: rest
    else (k, v) :: insert key value rest

def Sorted {α : Type} (ms : List (String × α)) : Prop := ms.Pairwise fun a b => a.1 < b.1

theorem key_of_mem_insert {α : Type} {key : String} {value : α} {ms : List (String × α)}
    {m : String × α} (h : m ∈ insert key value ms) : m = (key, value) ∨ m ∈ ms := by
  induction ms with
  | nil => simp_all [insert]
  | cons x rest ih =>
    rw [insert] at h
    split at h
    · simpa using h
    · split at h
      · rcases List.mem_cons.1 h with h | h <;> simp_all
      · rcases List.mem_cons.1 h with h | h
        · simp_all
        · rcases ih h with h | h <;> simp_all

theorem sorted_insert {α : Type} (key : String) (value : α) {ms : List (String × α)}
    (h : Sorted ms) : Sorted (insert key value ms) := by
  induction ms with
  | nil => simp [insert, Sorted]
  | cons x rest ih =>
    obtain ⟨k, v⟩ := x
    have ⟨hk, hr⟩ := List.pairwise_cons.1 h
    rw [insert]
    split
    · next hlt =>
      refine List.pairwise_cons.2 ⟨fun m hm => ?_, h⟩
      rcases List.mem_cons.1 hm with rfl | hm
      · exact hlt
      · exact String.lt_trans hlt (hk m hm)
    · next hge =>
      split
      · next heq => subst heq; exact List.pairwise_cons.2 ⟨hk, hr⟩
      · next hne =>
        refine List.pairwise_cons.2 ⟨fun m hm => ?_, ih hr⟩
        rcases key_of_mem_insert hm with rfl | hm
        · rcases Std.lt_trichotomy k key with h | h | h
          · exact h
          · exact absurd h.symm hne
          · exact absurd h hge
        · exact hk m hm

def get? {α : Type} (key : String) : List (String × α) → Option α
  | [] => none
  | (k, v) :: rest => if k = key then some v else get? key rest

@[simp] theorem get?_insert_self {α : Type} (key : String) (value : α) (ms : List (String × α)) :
    get? key (insert key value ms) = some value := by
  induction ms with
  | nil => simp [insert, get?]
  | cons m rest ih =>
    rw [insert]
    split
    · simp [get?]
    · split
      · simp [get?]
      · next hne => simp [get?, Ne.symm hne, ih]

theorem get?_insert_of_ne {α : Type} {key other : String} (hne : other ≠ key) (value : α)
    (ms : List (String × α)) : get? other (insert key value ms) = get? other ms := by
  induction ms with
  | nil => simp [insert, get?, hne.symm]
  | cons m rest ih =>
    rw [insert]
    split
    · simp [get?, hne.symm]
    · split
      · next heq => subst heq; simp [get?, hne.symm]
      · simp [get?, ih]

theorem get?_eq_none_iff {α : Type} {key : String} {ms : List (String × α)} :
    get? key ms = none ↔ ∀ value, (key, value) ∉ ms := by
  induction ms with
  | nil => simp [get?]
  | cons m rest ih =>
    obtain ⟨k, v⟩ := m
    by_cases here : k = key
    · subst here
      exact iff_of_false (by simp [get?]) fun absent => absent v List.mem_cons_self
    · simp [get?, here, Ne.symm here, ih]

theorem get?_eq_some_iff {α : Type} {key : String} {value : α} {ms : List (String × α)}
    (sorted : Sorted ms) : get? key ms = some value ↔ (key, value) ∈ ms := by
  induction ms with
  | nil => simp [get?]
  | cons m rest ih =>
    obtain ⟨k, v⟩ := m
    obtain ⟨before, behind⟩ := List.pairwise_cons.1 sorted
    by_cases here : k = key
    · subst here
      have once : (k, value) ∉ rest := fun later => String.lt_irrefl k (before _ later)
      simp [get?, once, eq_comm]
    · simp [get?, here, Ne.symm here, ih behind]

theorem get?_map {α β : Type} (f : α → β) (key : String) (ms : List (String × α)) :
    get? key (ms.map fun (k, v) => (k, f v)) = (get? key ms).map f := by
  induction ms with
  | nil => rfl
  | cons m rest ih =>
    by_cases here : m.1 = key
    · simp [get?, here]
    · simpa [get?, here] using ih

end Members

/-- A map from texts, its members in the order of their keys. -/
structure TextMap (α : Type) where
  members : List (String × α)
  sorted : Members.Sorted members
deriving DecidableEq

namespace TextMap

variable {α : Type}

def empty : TextMap α := ⟨[], List.Pairwise.nil⟩

instance : Inhabited (TextMap α) := ⟨empty⟩

def insert (key : String) (value : α) (m : TextMap α) : TextMap α :=
  ⟨Members.insert key value m.members, Members.sorted_insert key value m.sorted⟩

def get? (key : String) (m : TextMap α) : Option α := Members.get? key m.members

def keys (m : TextMap α) : List String := m.members.map Prod.fst

/-- Writes the pairs one after another: the last value of a key stays. -/
def insertAll (pairs : List (String × α)) (m : TextMap α) : TextMap α :=
  pairs.foldl (fun m (k, v) => m.insert k v) m

def ofList (pairs : List (String × α)) : TextMap α := empty.insertAll pairs

@[simp] theorem get?_insert_self (key : String) (value : α) (m : TextMap α) :
    (m.insert key value).get? key = some value := Members.get?_insert_self key value m.members

theorem get?_insert_of_ne {key other : String} (h : other ≠ key) (value : α) (m : TextMap α) :
    (m.insert key value).get? other = m.get? other := Members.get?_insert_of_ne h value m.members

/-- Sorted pairs take the place of what the map has under their keys, and of nothing else. -/
theorem get?_insertAll {pairs : List (String × α)} (sorted : Members.Sorted pairs) (key : String)
    (m : TextMap α) : (m.insertAll pairs).get? key = (Members.get? key pairs).or (m.get? key) := by
  induction pairs generalizing m with
  | nil => rfl
  | cons pair rest ih =>
    obtain ⟨k, v⟩ := pair
    obtain ⟨before, behind⟩ := List.pairwise_cons.1 sorted
    have rest_eq : (m.insertAll ((k, v) :: rest)).get? key =
        (Members.get? key rest).or ((m.insert k v).get? key) := ih behind (m.insert k v)
    rw [rest_eq]
    by_cases here : k = key
    · subst here
      have absent : Members.get? k rest = none :=
        Members.get?_eq_none_iff.2 fun _ later => String.lt_irrefl k (before _ later)
      simp [Members.get?, absent]
    · simp [Members.get?, here, get?_insert_of_ne (Ne.symm here)]

theorem keys_sorted (m : TextMap α) : m.keys.Pairwise (· < ·) :=
  List.pairwise_map.2 m.sorted

theorem mem_keys_iff {key : String} {m : TextMap α} : key ∈ m.keys ↔ (m.get? key).isSome = true := by
  rw [Option.isSome_iff_ne_none, ne_eq, get?, Members.get?_eq_none_iff]
  simp [keys]

end TextMap

end LogIntake
