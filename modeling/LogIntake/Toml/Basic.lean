import LogIntake.Number.Binary64
import LogIntake.Toml.Datetime

/-!
Trees of arrays and tables, and TOML values as the trees whose leaves are scalars. A table keeps the
order in which its keys were first set.
-/
namespace LogIntake.Toml

inductive Tree (α : Type) where
  | leaf (a : α)
  | array (items : List (Tree α))
  | table (entries : List (String × Tree α))
deriving Inhabited

abbrev Entries (α : Type) := List (String × Tree α)

inductive Scalar where
  | string (s : String)
  | integer (n : Int)
  | float (x : Binary64)
  | boolean (b : Bool)
  | datetime (d : Datetime)
deriving DecidableEq, Inhabited

abbrev Value := Tree Scalar

abbrev Table := Entries Scalar

namespace Scalar

def typeName : Scalar → String
  | string _ => "string"
  | integer _ => "integer"
  | float _ => "float"
  | boolean _ => "boolean"
  | datetime _ => "datetime"

end Scalar

def Tree.typeName : Value → String
  | .leaf s => s.typeName
  | .array _ => "array"
  | .table _ => "table"

namespace Entries

variable {β : Type}

def get? (key : String) : List (String × β) → Option β
  | [] => none
  | (k, v) :: rest => if k = key then some v else get? key rest

/-- Sets the value of a key: in its place when the table has the key, else at the end. -/
def put (key : String) (value : β) : List (String × β) → List (String × β)
  | [] => [(key, value)]
  | (k, v) :: rest => if k = key then (k, value) :: rest else (k, v) :: put key value rest

def erase (key : String) : List (String × β) → List (String × β)
  | [] => []
  | (k, v) :: rest => if k = key then rest else (k, v) :: erase key rest

def keys (entries : List (String × β)) : List String := entries.map Prod.fst

def has (key : String) (entries : List (String × β)) : Bool := (get? key entries).isSome

@[simp] theorem get?_put_self (key : String) (value : β) (entries : List (String × β)) :
    get? key (put key value entries) = some value := by
  induction entries with
  | nil => simp [put, get?]
  | cons e rest ih =>
    rw [put]
    split
    · next h => simp [get?, h]
    · next h => simp [get?, h, ih]

theorem get?_put_of_ne {key other : String} (h : other ≠ key) (value : β)
    (entries : List (String × β)) : get? other (put key value entries) = get? other entries := by
  induction entries with
  | nil => simp [put, get?, h.symm]
  | cons e rest ih =>
    rw [put]
    split
    · next he => simp [get?, he, h.symm]
    · simp [get?, ih]

theorem get?_eq_none_iff {key : String} {entries : List (String × β)} :
    get? key entries = none ↔ key ∉ keys entries := by
  induction entries with
  | nil => simp [get?, keys]
  | cons e rest ih =>
    rw [get?]
    split
    · next h => simp [keys, h]
    · next h => simpa [keys, Ne.symm h] using ih

theorem has_iff {key : String} {entries : List (String × β)} :
    has key entries = true ↔ key ∈ keys entries := by
  rw [has, Option.isSome_iff_ne_none, ne_eq, get?_eq_none_iff, Decidable.not_not]

/-- Setting a key that is there keeps all keys in their places; a new one comes last. -/
theorem keys_put (key : String) (value : β) (entries : List (String × β)) :
    keys (put key value entries) =
      if key ∈ keys entries then keys entries else keys entries ++ [key] := by
  induction entries with
  | nil => simp [put, keys]
  | cons e rest ih =>
    rw [put]
    split
    · next h => simp [keys, h]
    · next h =>
      have hk : key ≠ e.1 := Ne.symm h
      simp only [keys, List.map_cons, List.mem_cons, hk, false_or] at ih ⊢
      rw [ih]
      split <;> simp_all

theorem get?_erase_of_ne {key other : String} (h : other ≠ key) (entries : List (String × β)) :
    get? other (erase key entries) = get? other entries := by
  induction entries with
  | nil => rfl
  | cons e rest ih =>
    rw [erase]
    split
    · next he => simp [get?, he, h.symm]
    · simp [get?, ih]

theorem erase_of_get?_eq_none {key : String} {entries : List (String × β)}
    (h : get? key entries = none) : erase key entries = entries := by
  induction entries with
  | nil => rfl
  | cons e rest ih =>
    by_cases hk : e.1 = key
    · simp [get?, hk] at h
    · simp only [get?, hk, if_false] at h
      simp [erase, hk, ih h]

theorem keys_erase (key : String) (entries : List (String × β)) :
    keys (erase key entries) = (keys entries).erase key := by
  induction entries with
  | nil => rfl
  | cons e rest ih =>
    by_cases h : e.1 = key
    · simp [erase, keys, h]
    · simp only [keys] at ih
      simp [erase, keys, h, ih]

theorem erase_put_self (key : String) (value : β) (entries : List (String × β)) :
    erase key (put key value entries) = erase key entries := by
  induction entries with
  | nil => simp [put, erase]
  | cons e rest ih =>
    by_cases h : e.1 = key
    · simp [put, erase, h]
    · simp [put, erase, h, ih]

theorem erase_put_of_ne {key other : String} (h : other ≠ key) (value : β)
    (entries : List (String × β)) :
    erase other (put key value entries) = put key value (erase other entries) := by
  induction entries with
  | nil => simp [put, erase, h.symm]
  | cons e rest ih =>
    by_cases hk : e.1 = key
    · simp [put, erase, hk, h.symm]
    · by_cases ho : e.1 = other
      · simp [put, erase, ho, h]
      · simp [put, erase, hk, ho, ih]

end Entries

mutual

/-- Replaces every leaf by a tree: the shape around the leaves and all keys stay. -/
def Tree.bind {α β : Type} (f : α → Tree β) : Tree α → Tree β
  | .leaf a => f a
  | .array items => .array (bindItems f items)
  | .table entries => .table (bindEntries f entries)

def bindItems {α β : Type} (f : α → Tree β) : List (Tree α) → List (Tree β)
  | [] => []
  | t :: rest => t.bind f :: bindItems f rest

def bindEntries {α β : Type} (f : α → Tree β) : Entries α → Entries β
  | [] => []
  | (k, t) :: rest => (k, t.bind f) :: bindEntries f rest

end

def Tree.map {α β : Type} (f : α → β) (t : Tree α) : Tree β := t.bind fun a => .leaf (f a)

def mapEntries {α β : Type} (f : α → β) (entries : Entries α) : Entries β :=
  bindEntries (fun a => .leaf (f a)) entries

mutual

/-- Changes every leaf from left to right, up to the first one that cannot be changed. -/
def Tree.mapM? {α β ε : Type} (f : α → Except ε β) : Tree α → Except ε (Tree β)
  | .leaf a => (f a).map .leaf
  | .array items => (mapItemsM? f items).map .array
  | .table entries => (mapEntriesM? f entries).map .table

def mapItemsM? {α β ε : Type} (f : α → Except ε β) : List (Tree α) → Except ε (List (Tree β))
  | [] => .ok []
  | t :: rest => do
    let t ← t.mapM? f
    let rest ← mapItemsM? f rest
    .ok (t :: rest)

def mapEntriesM? {α β ε : Type} (f : α → Except ε β) : Entries α → Except ε (Entries β)
  | [] => .ok []
  | (k, t) :: rest => do
    let t ← t.mapM? f
    let rest ← mapEntriesM? f rest
    .ok ((k, t) :: rest)

end

mutual

def Tree.leaves {α : Type} : Tree α → List α
  | .leaf a => [a]
  | .array items => itemLeaves items
  | .table entries => entryLeaves entries

def itemLeaves {α : Type} : List (Tree α) → List α
  | [] => []
  | t :: rest => t.leaves ++ itemLeaves rest

def entryLeaves {α : Type} : Entries α → List α
  | [] => []
  | (_, t) :: rest => t.leaves ++ entryLeaves rest

end

end LogIntake.Toml
