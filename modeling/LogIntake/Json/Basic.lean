import LogIntake.Number.Binary64
import LogIntake.TextMap

/-!
JSON values. The members of an object stand in the order of their keys, each key once.
-/
namespace LogIntake.Json

/-- A number: whole when it was written so and has room in 64 bits, else floating. -/
inductive Number where
  | whole (n : Int)
  | floating (x : Binary64)
deriving DecidableEq, Inhabited

inductive Value where
  | null
  | bool (b : Bool)
  | number (n : Number)
  | string (s : String)
  | array (items : List Value)
  | object (members : List (String × Value))
deriving Inhabited

def Value.kind : Value → String
  | .null => "null"
  | .bool _ => "a boolean"
  | .number _ => "a number"
  | .string _ => "a string"
  | .array _ => "an array"
  | .object _ => "an object"

def Value.text? : Value → Option String
  | .string s => some s
  | _ => none

def Value.member? (key : String) : Value → Option Value
  | .object members => Members.get? key members
  | _ => none

end LogIntake.Json
