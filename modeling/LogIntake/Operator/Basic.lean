import LogIntake.Entry
import LogIntake.Failure

/-!
Operators, the stages of a pipeline. An operator is started once, then asked to process one entry
after another, then stopped. What it does beside that is told by the tasks that it leaves behind when
it starts. Each call may also write lines into a journal. Calls and tasks end with a result; that one of
them crashes is left out.
-/
namespace LogIntake

/-- The place of an operator in a pipeline. -/
inductive Capability where
  /-- Brings entries in; stands first. -/
  | input
  /-- Changes or drops the entries that come by. -/
  | intermediate
  /-- Takes the entries; stands last. -/
  | output
deriving DecidableEq, Inhabited, Repr

def Capability.name : Capability → String
  | input => "input"
  | intermediate => "intermediate"
  | output => "output"

inductive ProcessError where
  /-- The operator is broken and cannot be used any more. -/
  | fatal (cause : Failure)
  /-- The entry is bad and is dropped; the operator is fine. -/
  | invalidEntry (cause : Failure)
deriving DecidableEq

namespace ProcessError

def cause : ProcessError → Failure
  | fatal f => f
  | invalidEntry f => f

/-- The message, with the outermost cause alone. -/
def message : ProcessError → String
  | fatal f => "fatal error in Operator::process: " ++ f.outermost
  | invalidEntry f => "invalid entry, it has been dropped: " ++ f.outermost

end ProcessError

/-- A task beside the chain, as what it does next. -/
inductive Task where
  /-- The task is over. -/
  | finish (result : Except Failure Unit)
  /-- Sends an entry into the pipeline and goes on knowing whether it was accepted. -/
  | send (entry : Entry) (next : Bool → Task)
  | sleep (milliseconds : Nat) (next : Task)
  /-- Waits until the pipeline shuts down. -/
  | awaitShutdown (next : Task)

instance : Inhabited Task := ⟨.finish (.ok ())⟩

/-- How starting an operator went. Its tasks are left behind even when it fails. -/
structure Started (σ : Type) where
  operator : σ
  tasks : List Task := []
  journal : List String := []
  outcome : Except Failure Unit := .ok ()

structure Stopped (σ : Type) where
  operator : σ
  journal : List String := []
  outcome : Except Failure Unit := .ok ()

/-- What became of an entry: it goes on, it is consumed, or it could not be processed. -/
structure Processed (σ : Type) where
  operator : σ
  journal : List String := []
  outcome : Except ProcessError (Option Entry)

/-- The operators whose state is a value of `σ`. -/
class Operator (σ : Type) where
  start : σ → Started σ := fun s => { operator := s }
  stop : σ → Stopped σ := fun s => { operator := s }
  process : Entry → σ → Processed σ := fun e s => { operator := s, outcome := .ok (some e) }

end LogIntake
