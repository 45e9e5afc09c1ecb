import LogIntake.Settings.Basic
import LogIntake.Settings.Merge
import LogIntake.Settings.Substitution

/-!
Loading settings from a file: variables of the environment are filled in, the text is read as a
table, and the overrides are merged over it in their order.
-/
namespace LogIntake

open Text (Bytes)

structure Source where
  path : String
  /-- What reading the file gives. -/
  content : Except SystemFault Bytes
  /-- The environment, when its variables are to be filled in. -/
  environment : Option (String → Substitution.Variable) := none
  overrides : List Toml.Table := []

inductive SourceFault where
  | unreadable (fault : SystemFault)
  | substitution (fault : Substitution.Fault)
  | invalidToml (e : TomlError)
  | invalidSettings (e : Toml.DecodeError)
deriving DecidableEq, Repr

def SourceFault.failure (path : String) (fault : SourceFault) : Failure :=
  let cause : Failure := match fault with
    | unreadable f => ⟨"read failed", [f.message]⟩
    | substitution f => ⟨"env var substitution failed", [f.message]⟩
    | invalidToml e => ⟨"invalid TOML", [e.message]⟩
    | invalidSettings e => ⟨"invalid receiver config", [e.message .memory]⟩
  cause.context ("could not load config from '" ++ path ++ "'")

namespace Source

def joined? : List Toml.Table → Option Toml.Table
  | [] => none
  | first :: rest => some (rest.foldl Toml.mergeOver first)

def text (s : Source) : Except SourceFault String := do
  let bytes ← s.content.mapError .unreadable
  match Text.decode? bytes with
  | none => .error (.unreadable .invalidData)
  | some text =>
    match s.environment with
    | none => .ok text
    | some lookup =>
      ((Substitution.fill lookup text.toList).map String.ofList).mapError .substitution

/-- The table of the file with the overrides merged over it. -/
def table (s : Source) : Except SourceFault Toml.Table := do
  let text ← s.text
  let table ← (decodeToml (Toml.decodeTable .text) text).mapError .invalidToml
  match joined? s.overrides with
  | none => .ok table
  | some override => .ok (Toml.mergeOver table override)

def settings (s : Source) : Except SourceFault Settings := do
  let table ← s.table
  (Settings.ofTable table).mapError .invalidSettings

end Source

end LogIntake
