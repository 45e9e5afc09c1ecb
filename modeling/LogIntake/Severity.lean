import LogIntake.Text.Blank

/-!
The level of a log event: its names, its number, and the names it is read from.
-/
namespace LogIntake

inductive Severity where
  | default
  | trace
  | debug
  | info
  | warn
  | error
  | fatal
deriving DecidableEq, Inhabited, Repr

namespace Severity

/-- The number of the level on the common scale of 24 steps, zero when nothing is known. -/
def number : Severity → Nat
  | default => 0
  | trace => 1
  | debug => 5
  | info => 9
  | warn => 13
  | error => 17
  | fatal => 21

def name : Severity → String
  | default => "default"
  | trace => "trace"
  | debug => "debug"
  | info => "info"
  | warn => "warn"
  | error => "error"
  | fatal => "fatal"

def words : List (String × Severity) :=
  [("default", default), ("trace", trace), ("debug", debug),
   ("info", info), ("information", info), ("notice", info),
   ("warn", warn), ("warning", warn), ("error", error), ("err", error),
   ("fatal", fatal), ("critical", fatal), ("crit", fatal), ("emergency", fatal)]

/-- The level that a word stands for. Only the ASCII letters have two cases. -/
def ofWord? (word : String) : Option Severity :=
  words.lookup (String.ofList (word.toList.map Char.toLower))

def unknownMessage (word : String) : String := "unknown severity '" ++ word ++ "'"

end Severity

end LogIntake
