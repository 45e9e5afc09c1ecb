import LogIntake.Toml.Basic

/-!
Merging one table over another. Where both hold a table the two are merged; any other value of the
second table stands in place of the first one's. Keys keep their places and new ones come last.
-/
namespace LogIntake.Toml

mutual

/-- What stands under a key after `new` was merged over the value that was there. -/
def mergeValue {α : Type} : Option (Tree α) → Tree α → Tree α
  | some (.table old), .table new => .table (mergeOver old new)
  | _, new => new

/-- The table `old` with the entries of the second one merged over it, one after another. -/
def mergeOver {α : Type} (old : Entries α) : Entries α → Entries α
  | [] => old
  | (key, new) :: rest =>
    mergeOver (Entries.put key (mergeValue (Entries.get? key old) new) old) rest

end

@[simp] theorem mergeOver_nil {α : Type} (old : Entries α) : mergeOver old [] = old := by
  simp [mergeOver]

@[simp] theorem mergeOver_cons {α : Type} (old : Entries α) (key : String) (new : Tree α)
    (rest : Entries α) :
    mergeOver old ((key, new) :: rest) =
      mergeOver (Entries.put key (mergeValue (Entries.get? key old) new) old) rest := by
  simp [mergeOver]

end LogIntake.Toml
