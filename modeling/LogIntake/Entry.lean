import LogIntake.Json.Basic
import LogIntake.Severity
import LogIntake.TextMap
import LogIntake.Timestamp

/-!
Log entries: what happened, when, how serious it is, and what is known about it and its origin.
-/
namespace LogIntake

abbrev Attributes := TextMap String

structure Entry where
  timestamp : Timestamp := .epoch
  body : Json.Value := .null
  /-- What is known about the event. -/
  attributes : Attributes := .empty
  /-- What is known about its origin. -/
  resource : Attributes := .empty
  severity : Severity := .default
  /-- The level in the words of the origin. -/
  severityText : Option String := none
deriving Inhabited

namespace Entry

/-- Sets an attribute, in place of an earlier one. -/
def addAttribute (key value : String) (e : Entry) : Entry :=
  { e with attributes := e.attributes.insert key value }

def addResource (key value : String) (e : Entry) : Entry :=
  { e with resource := e.resource.insert key value }

def attribute? (key : String) (e : Entry) : Option String := e.attributes.get? key

@[simp] theorem attribute?_addAttribute (key value : String) (e : Entry) :
    (e.addAttribute key value).attribute? key = some value := by
  simp [attribute?, addAttribute]

theorem attribute?_addAttribute_of_ne {key other : String} (h : other ≠ key) (value : String)
    (e : Entry) : (e.addAttribute key value).attribute? other = e.attribute? other :=
  TextMap.get?_insert_of_ne h value e.attributes

theorem foldl_addAttribute (pairs : List (String × String)) (e : Entry) :
    pairs.foldl (fun e (k, v) => e.addAttribute k v) e =
      { e with attributes := e.attributes.insertAll pairs } := by
  induction pairs generalizing e with
  | nil => rfl
  | cons pair rest ih => exact ih (e.addAttribute pair.1 pair.2)

theorem foldl_addResource (pairs : List (String × String)) (e : Entry) :
    pairs.foldl (fun e (k, v) => e.addResource k v) e =
      { e with resource := e.resource.insertAll pairs } := by
  induction pairs generalizing e with
  | nil => rfl
  | cons pair rest ih => exact ih (e.addResource pair.1 pair.2)

end Entry

abbrev Batch := List Entry

end LogIntake
