import LogIntake.Operator.Registry
import LogIntake.Template.Set

/-!
Building a chain of operators from their tables. A table that names a template stands for the tables
of the template, which are built in its place under its name. The chain is checked as a whole before
any operator is made.
-/
namespace LogIntake

structure Stage (σ : Type) where
  id : String
  typeName : String
  capability : Capability
  operator : σ
deriving Inhabited

inductive BuildError where
  | emptyPipeline
  /-- The place is the id of the template's operator, or none for the pipeline itself. -/
  | missingType (index : Nat) (place : Option String)
  | notAString (key : String) (index : Nat) (place : Option String) (actual : String)
  | unknownType (id typeName : String)
  | invalidConfig (id typeName : String) (cause : Failure)
  | missingParameter (id template parameter : String)
  | unknownParameter (id template parameter : String)
  | duplicateId (id : String)
  | misplaced (id : String) (capability : Capability) (expected : String)
  | templateCycle (template : String) (chain : List String)
  | tooDeep (chain : List String)
deriving DecidableEq

def maxTemplateDepth : Nat := 16

namespace BuildError

def placeText : Option String → String
  | some id => "plugin operator '" ++ id ++ "'"
  | none => "the pipeline"

def chainText (chain : List String) : String := " -> ".intercalate chain

def failure : BuildError → Failure
  | emptyPipeline => ⟨"the pipeline is empty", []⟩
  | missingType index place =>
    ⟨"operator #" ++ Text.Numeral.text index ++ " of " ++ placeText place ++ " has no 'type'", []⟩
  | notAString key index place actual =>
    ⟨"invalid value for '" ++ key ++ "' in operator #" ++ Text.Numeral.text index ++ " of " ++
      placeText place ++ ": expected a string, got " ++ actual, []⟩
  | unknownType id typeName =>
    ⟨"unsupported operator type '" ++ typeName ++ "' (operator '" ++ id ++ "')", []⟩
  | invalidConfig id typeName cause =>
    cause.context
      ("invalid configuration for operator '" ++ id ++ "' of type '" ++ typeName ++ "'")
  | missingParameter id template parameter =>
    ⟨"missing parameter '" ++ parameter ++ "' for plugin '" ++ template ++ "' (operator '" ++ id ++
      "')", []⟩
  | unknownParameter id template parameter =>
    ⟨"unknown parameter '" ++ parameter ++ "' for plugin '" ++ template ++ "' (operator '" ++ id ++
      "')", []⟩
  | duplicateId id => ⟨"duplicate operator id '" ++ id ++ "'", []⟩
  | misplaced id capability expected =>
    ⟨"operator '" ++ id ++ "' is an " ++ capability.name ++ " and must be the " ++ expected ++
      " operator of the pipeline", []⟩
  | templateCycle template chain =>
    ⟨"plugin '" ++ template ++ "' references itself: " ++ chainText chain, []⟩
  | tooDeep chain =>
    ⟨"plugins are nested too deeply (more than " ++ Text.Numeral.text maxTemplateDepth ++
      " levels): " ++ chainText chain, []⟩

end BuildError

/-- An operator table whose type is registered: the operator's full id, its type and its own
settings. -/
structure Resolved (σ : Type) where
  id : String
  type : OperatorType σ
  settings : Toml.Table

/-- The type and the id that an operator table says, and its other entries. -/
structure Head where
  typeName : String
  localId : String
  settings : Toml.Table

namespace Build

variable {σ : Type}

def textOf (key : String) (index : Nat) (place : Option String) :
    Toml.Value → Except BuildError String
  | .leaf (.string s) => .ok s
  | v => .error (.notAString key index place v.typeName)

/-- Takes the type and the id out of an operator table. Without an id, the type is the id. -/
def head (index : Nat) (place : Option String) (table : Toml.Table) : Except BuildError Head :=
  match Toml.Entries.get? "type" table with
  | none => .error (.missingType index place)
  | some v => do
    let typeName ← textOf "type" index place v
    let settings := Toml.Entries.erase "type" table
    match Toml.Entries.get? "id" settings with
    | none => .ok ⟨typeName, typeName, settings⟩
    | some v => do
      let localId ← textOf "id" index place v
      .ok ⟨typeName, localId, Toml.Entries.erase "id" settings⟩

/-- The full id of an operator: the ids of the templates that hold it come before its own. -/
def fullId (place : Option String) (localId : String) : String :=
  match place with
  | some outer => outer ++ "." ++ localId
  | none => localId

/-- How the tables of a template are resolved, given the full id of the template's operator and the
templates being expanded. -/
abbrev Descend (σ : Type) :=
  Option String → List String → List Toml.Table → Except BuildError (List (Resolved σ))

/-- Resolves one table. The registry comes before the templates. Without a way down, a template is
too deep. -/
def resolveOne (registry : Registry σ) (templates : TemplateSet) (descend : Option (Descend σ))
    (place : Option String) (stack : List String) (index : Nat) (table : Toml.Table) :
    Except BuildError (List (Resolved σ)) := do
  let h ← head index place table
  let id := fullId place h.localId
  match registry.get? h.typeName with
  | some type => .ok [⟨id, type, h.settings⟩]
  | none =>
    match templates.get? h.typeName with
    | none => .error (.unknownType id h.typeName)
    | some template =>
      if stack.contains h.typeName then
        .error (.templateCycle h.typeName (stack ++ [h.typeName]))
      else
        match descend with
        | none => .error (.tooDeep (stack ++ [h.typeName]))
        | some descend =>
          match template.instantiate h.settings with
          | .error (.missingParameter p) => .error (.missingParameter id h.typeName p)
          | .error (.unknownParameter p) => .error (.unknownParameter id h.typeName p)
          | .ok tables => descend (some id) (stack ++ [h.typeName]) tables

def resolveEach (one : Nat → Toml.Table → Except BuildError (List (Resolved σ))) :
    Nat → List Toml.Table → Except BuildError (List (Resolved σ))
  | _, [] => .ok []
  | index, table :: rest => do
    let front ← one index table
    let back ← resolveEach one (index + 1) rest
    .ok (front ++ back)

/-- Resolves tables where templates may nest `room` deeper. -/
def resolveAll (registry : Registry σ) (templates : TemplateSet) : Nat → Descend σ
  | 0 => fun place stack => resolveEach (resolveOne registry templates none place stack) 0
  | room + 1 => fun place stack =>
    resolveEach (resolveOne registry templates (some (resolveAll registry templates room)) place
      stack) 0

def expand (registry : Registry σ) (templates : TemplateSet) (tables : List Toml.Table) :
    Except BuildError (List (Resolved σ)) :=
  resolveAll registry templates maxTemplateDepth none [] tables

def duplicate? (seen : List String) : List String → Option String
  | [] => none
  | id :: rest => if seen.contains id then some id else duplicate? (id :: seen) rest

/-- Where an operator would have to stand, if it does not. -/
def wrongPlace? (isFirst isLast : Bool) : Capability → Option String
  | .input => if isFirst then none else some "first"
  | .output => if isLast then none else some "last"
  | .intermediate => none

def misplaced? (isFirst : Bool) : List (Resolved σ) → Option BuildError
  | [] => none
  | r :: rest =>
    match wrongPlace? isFirst rest.isEmpty r.type.capability with
    | some expected => some (.misplaced r.id r.type.capability expected)
    | none => misplaced? false rest

def chainFault? (chain : List (Resolved σ)) : Option BuildError :=
  if chain.isEmpty then some .emptyPipeline
  else
    match duplicate? [] (chain.map Resolved.id) with
    | some id => some (.duplicateId id)
    | none => misplaced? true chain

def make (r : Resolved σ) : Except BuildError (Stage σ) :=
  match r.type.build r.id r.settings with
  | .ok operator => .ok ⟨r.id, r.type.name, r.type.capability, operator⟩
  | .error cause => .error (.invalidConfig r.id r.type.name cause)

def makeAll : List (Resolved σ) → Except BuildError (List (Stage σ))
  | [] => .ok []
  | r :: rest => do
    let stage ← make r
    let rest ← makeAll rest
    .ok (stage :: rest)

end Build

/-- Builds the chain that the tables describe. -/
def buildPipeline {σ : Type} (registry : Registry σ) (templates : TemplateSet)
    (tables : List Toml.Table) : Except BuildError (List (Stage σ)) := do
  let chain ← Build.expand registry templates tables
  match Build.chainFault? chain with
  | some fault => .error fault
  | none => Build.makeAll chain

end LogIntake
