import LogIntake.Entry

/-!
Batches in the form in which a consumer takes them: records grouped by their origin. Origins stand in
the order of their first record, and records of one origin in the order of the batch. When a record was made is left
out: nothing reads it.
-/
namespace LogIntake

/-- An entry as the consumer sees it. -/
structure LogRecord where
  timeUnixNano : Nat
  severityNumber : Nat
  severityText : Option String
  body : Json.Value
  attributes : Attributes
deriving Inhabited

structure ResourceLogs where
  resource : Attributes
  records : List LogRecord
deriving Inhabited

structure Logs where
  resourceLogs : List ResourceLogs
deriving Inhabited

namespace Logs

def record (e : Entry) : LogRecord where
  timeUnixNano := e.timestamp.unixNanos
  severityNumber := e.severity.number
  severityText := e.severityText
  body := e.body
  attributes := e.attributes

/-- Adds a record to the first group of its origin, or to a new group at the end. -/
def addRecord (resource : Attributes) (r : LogRecord) : List ResourceLogs → List ResourceLogs
  | [] => [⟨resource, [r]⟩]
  | g :: groups =>
    if g.resource = resource then { g with records := g.records ++ [r] } :: groups
    else g :: addRecord resource r groups

def addBatch (groups : List ResourceLogs) (batch : Batch) : List ResourceLogs :=
  batch.foldl (fun groups e => addRecord e.resource (record e) groups) groups

def ofBatch (batch : Batch) : Logs := ⟨addBatch [] batch⟩

def records (logs : Logs) : List (Attributes × LogRecord) :=
  logs.resourceLogs.flatMap fun g => g.records.map fun r => (g.resource, r)

def recordCount (logs : Logs) : Nat :=
  logs.resourceLogs.foldr (fun g n => g.records.length + n) 0

def isEmpty (logs : Logs) : Bool := logs.recordCount == 0

@[simp] theorem addBatch_append (groups : List ResourceLogs) (xs ys : Batch) :
    addBatch groups (xs ++ ys) = addBatch (addBatch groups xs) ys := by
  simp [addBatch]

end Logs

end LogIntake
