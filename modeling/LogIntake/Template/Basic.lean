import LogIntake.Template.Pattern
import LogIntake.Files
import LogIntake.Failure
import LogIntake.Toml.Decode
import LogIntake.Toml.Inline
import LogIntake.Toml.Reader

/-!
Templates: pipelines with parameters. The strings of a template are split into pieces when it is
read; filling it replaces each leaf once, so what is put in is never looked at again.
-/
namespace LogIntake

namespace Template

/-- A leaf of a template: a scalar, or a text with at least one placeholder. -/
inductive Leaf where
  | plain (s : Toml.Scalar)
  | pattern (pieces : List Piece)
deriving DecidableEq, Inhabited

def pieceParameters (pieces : List Piece) : List String :=
  pieces.filterMap fun
    | .parameter name => some name
    | .words _ => none

def Leaf.parameters : Leaf → List String
  | plain _ => []
  | pattern pieces => pieceParameters pieces

def Leaf.ofScalar : Toml.Scalar → Except Fault Leaf
  | .string s => do
    let pieces ← split s.toList
    if (pieceParameters pieces).isEmpty then .ok (.plain (.string s)) else .ok (.pattern pieces)
  | s => .ok (.plain s)

/-- The text of a value among words: a string as it is, any other value inline. -/
def valueText : Toml.Value → String
  | .leaf (.string s) => s
  | v => v.inline

def Piece.fill (lookup : String → Option Toml.Value) : Piece → String
  | .words s => s
  | .parameter name => ((lookup name).map valueText).getD ""

/-- A leaf with the parameters filled in. A placeholder alone becomes the value itself. -/
def Leaf.fill (lookup : String → Option Toml.Value) : Leaf → Toml.Value
  | plain s => .leaf s
  | pattern pieces =>
    let joined : Toml.Value := .leaf (.string (String.join (pieces.map (Piece.fill lookup))))
    match pieces with
    | [.parameter name] => (lookup name).getD joined
    | _ => joined

end Template

structure Template where
  name : String
  version : Option String
  description : Option String
  /-- The file that holds the template. -/
  source : String
  /-- The parameters that have to be given. -/
  required : List String
  /-- The parameters with a default. -/
  optional : Toml.Table
  pipeline : List (Toml.Entries Template.Leaf)
deriving Inhabited

inductive TomlError where
  | syntaxFault
  | decode (e : Toml.DecodeError)
deriving DecidableEq, Repr

def TomlError.message : TomlError → String
  | syntaxFault => "<syntax>"
  | decode e => e.message .text

/-- Reads a TOML text and decodes its table. A text whose table cannot even be kept as it is counts as
a syntax fault where decoding fails. -/
def decodeToml {α : Type} (decode : Toml.Tree Toml.Literal → Except Toml.DecodeError α)
    (text : String) : Except TomlError α :=
  match Toml.Reader.document? text.toList with
  | none => .error .syntaxFault
  | some entries =>
    match decode (.table entries) with
    | .ok a => .ok a
    | .error e =>
      match Toml.decodeTable .text (.table entries) with
      | .ok _ => .error (.decode e)
      | .error _ => .error .syntaxFault

namespace Template

inductive LoadError where
  | unreadable (fault : SystemFault)
  | invalidToml (e : TomlError)
  | emptyName
  | invalid (fault : Fault)
deriving DecidableEq, Repr

def LoadError.failure : LoadError → Failure
  | unreadable fault => ⟨"read failed", [fault.message]⟩
  | invalidToml e => ⟨"invalid TOML", [e.message]⟩
  | emptyName => ⟨"the name of the template cannot be empty", []⟩
  | invalid fault => ⟨"invalid template", [fault.message]⟩

/-- A template as its file writes it. -/
structure Source where
  name : Option String := none
  version : Option String := none
  description : Option String := none
  required : List String := []
  optional : Toml.Table := []
  pipeline : List Toml.Table := []

def Source.fields : List (Toml.Field Source) :=
  [.of "name" .optional Toml.decodeString fun s f => { f with name := some s },
   .of "version" .optional Toml.decodeString fun s f => { f with version := some s },
   .of "description" .optional Toml.decodeString fun s f => { f with description := some s },
   .of "required" .defaulted
     (fun source => Toml.decodeSequence (Toml.decodeString source) source)
     fun names f => { f with required := names },
   .of "optional" .defaulted Toml.decodeTable fun t f => { f with optional := t },
   .of "pipeline" .required
     (fun source => Toml.decodeSequence (Toml.decodeTable source) source)
     fun tables f => { f with pipeline := tables }]

def isDeclared (t : Template) (name : String) : Bool :=
  Toml.Entries.has name t.optional || t.required.contains name

def parameters (t : Template) : List String :=
  t.pipeline.flatMap fun entries => (Toml.entryLeaves entries).flatMap Leaf.parameters

def smallest? : List String → Option String
  | [] => none
  | name :: rest =>
    match smallest? rest with
    | none => some name
    | some other => some (if other < name then other else name)

def Source.fault? (file : Source) : Option Fault :=
  let declared := file.required ++ Toml.Entries.keys file.optional
  match declared.find? fun p => !isParameterName p.toList with
  | some bad => some (.invalidParameterName bad)
  | none =>
    match file.required.find? fun p => Toml.Entries.has p file.optional with
    | some both => some (.ambiguousParameter both)
    | none => if file.pipeline.isEmpty then some .emptyPipeline else none

def undeclared? (t : Template) : Option String :=
  smallest? (t.parameters.filter fun p => !t.isDeclared p)

def ofSource (file : Source) (defaultName source : String) : Except LoadError Template :=
  let name := file.name.getD defaultName
  if name = "" then .error .emptyName
  else
    match file.fault? with
    | some fault => .error (.invalid fault)
    | none => do
      let pipeline ←
        (file.pipeline.mapM (Toml.mapEntriesM? Leaf.ofScalar)).mapError LoadError.invalid
      let t : Template :=
        { name, version := file.version, description := file.description, source
          required := file.required, optional := file.optional, pipeline }
      match t.undeclared? with
      | some undeclared => .error (.invalid (.undeclaredParameter undeclared))
      | none => .ok t

/-- Reads a template from a text; `defaultName` is its name when it does not say one. -/
def parse (text defaultName source : String) : Except LoadError Template := do
  let file ← (decodeToml (Toml.decodeRecord "TemplateFile" Source.fields {} .text) text).mapError
    LoadError.invalidToml
  ofSource file defaultName source

inductive FillError where
  | missingParameter (name : String)
  | unknownParameter (name : String)
deriving DecidableEq, Repr

def FillError.message : FillError → String
  | missingParameter name => "missing parameter '" ++ name ++ "'"
  | unknownParameter name => "unknown parameter '" ++ name ++ "'"

/-- The value of a parameter: the one given, else its default. -/
def valueOf (t : Template) (given : Toml.Table) (name : String) : Option Toml.Value :=
  (Toml.Entries.get? name given).or (Toml.Entries.get? name t.optional)

/-- The operator tables of the pipeline, with the parameters filled in. -/
def instantiate (t : Template) (given : Toml.Table) : Except FillError (List Toml.Table) :=
  match t.required.find? fun name => !Toml.Entries.has name given with
  | some missing => .error (.missingParameter missing)
  | none =>
    match (Toml.Entries.keys given).find? fun name => !t.isDeclared name with
    | some unknown => .error (.unknownParameter unknown)
    | none => .ok (t.pipeline.map (Toml.bindEntries (Leaf.fill (t.valueOf given))))

end Template

end LogIntake
