import LogIntake.Json.Reader
import LogIntake.Json.Writer
import LogIntake.Operator.Location
import LogIntake.Operator.Registry

/-!
The operators that every registry can have: one adds texts to entries, one drops them, one parses
the JSON that they carry. How many entries the second one has dropped is left out: it is only logged.
-/
namespace LogIntake

/-! ### Adding -/

structure Add where
  attributes : Attributes := .empty
  resource : Attributes := .empty
deriving Inhabited

namespace Add

def fields : List (Toml.Field Add) :=
  [.of "attributes" .defaulted Toml.decodeTextMap fun ps a => { a with attributes := .ofList ps },
   .of "resource" .defaulted Toml.decodeTextMap fun ps a => { a with resource := .ofList ps }]

def apply (a : Add) (e : Entry) : Entry :=
  let e := a.attributes.members.foldl (fun e (k, v) => e.addAttribute k v) e
  a.resource.members.foldl (fun e (k, v) => e.addResource k v) e

end Add

/-! ### Parsing -/

inductive ParseTarget where
  | body
  | attributes
deriving DecidableEq, Inhabited

inductive OnParseError where
  | send
  | drop
deriving DecidableEq, Inhabited

/-- Parses the JSON text at one place of an entry. -/
structure JsonParser where
  parseFrom : Location := .body
  parseTo : ParseTarget := .body
  onError : OnParseError := .send
  /-- The member of a parsed object that holds the level. -/
  severityField : Option String := none
deriving Inhabited

namespace JsonParser

def decodeLocation : Toml.Source → Toml.Tree Toml.Literal → Except Toml.DecodeError Location :=
  Toml.decodeParsed "a string" fun s =>
    match Location.ofText? s with
    | some l => .ok l
    | none => .error (.other (Location.invalidMessage s))

def fields : List (Toml.Field JsonParser) :=
  [.of "parse_from" .defaulted decodeLocation fun l p => { p with parseFrom := l },
   .of "parse_to" .defaulted
     (Toml.decodeVariant [("body", ParseTarget.body), ("attributes", .attributes)])
     fun t p => { p with parseTo := t },
   .of "on_error" .defaulted (Toml.decodeVariant [("send", OnParseError.send), ("drop", .drop)])
     fun o p => { p with onError := o },
   .of "severity_field" .optional Toml.decodeString fun s p => { p with severityField := some s }]

def source (p : JsonParser) (e : Entry) : Except Failure String :=
  match p.parseFrom with
  | .body =>
    match e.body with
    | .string s => .ok s
    | other => .error ⟨"expected a string body, got " ++ other.kind, []⟩
  | .attributeAt key =>
    match e.attribute? key with
    | some s => .ok s
    | none => .error ⟨"missing attribute '" ++ key ++ "'", []⟩

/-- The parsed value. Only an object goes to the attributes. -/
def parse (p : JsonParser) (e : Entry) : Except Failure Json.Value := do
  let text ← p.source e
  match Json.Value.read (Text.encode text) with
  | .error fault => .error (Failure.context "invalid JSON" ⟨fault.message, []⟩)
  | .ok v =>
    match p.parseTo, v with
    | .body, v => .ok v
    | .attributes, .object ms => .ok (.object ms)
    | .attributes, v =>
      .error ⟨"only a JSON object can be parsed to attributes, got " ++ v.kind, []⟩

/-- The text of a value among attributes: a string as it is, any other value as JSON. -/
def attributeText : Json.Value → String
  | .string s => s
  | v => v.render

/-- Sets the level to the one that the parsed object holds, if it holds a text. -/
def setSeverity (p : JsonParser) (v : Json.Value) (e : Entry) : Entry :=
  match p.severityField.bind fun key => (v.member? key).bind Json.Value.text? with
  | some text =>
    { e with severity := (Severity.ofWord? text).getD .default, severityText := some text }
  | none => e

def store (p : JsonParser) (v : Json.Value) (e : Entry) : Entry :=
  match p.parseTo, v with
  | .attributes, .object ms =>
    ms.foldl (fun e (k, v) => e.addAttribute k (attributeText v)) e
  | _, v => { e with body := v }

def apply (p : JsonParser) (e : Entry) : Except ProcessError (Option Entry) :=
  match p.parse e with
  | .ok v => .ok (some (p.store v (p.setSeverity v e)))
  | .error f =>
    match p.onError with
    | .send => .ok (some e)
    | .drop => .error (.invalidEntry f)

end JsonParser

/-! ### All of them -/

inductive Builtin where
  | add (settings : Add)
  | dropOutput
  | jsonParser (settings : JsonParser)

namespace Builtin

def apply (e : Entry) : Builtin → Except ProcessError (Option Entry)
  | add a => .ok (some (a.apply e))
  | dropOutput => .ok none
  | jsonParser p => p.apply e

instance : Operator Builtin where
  process e b := { operator := b, outcome := apply e b }

/-- The built-in types, made into operators of any kind that has room for them. -/
def types {σ : Type} (of : Builtin → σ) : List (OperatorType σ) :=
  [.ofRecord "json_parser" .intermediate "JsonParserConfig" JsonParser.fields {} fun _ p =>
     if p.severityField = some "" then .error ⟨"severity_field cannot be empty", []⟩
     else .ok (of (.jsonParser p)),
   .ofRecord "add" .intermediate "AddConfig" Add.fields {} fun _ a => .ok (of (.add a)),
   .ofRecord "drop_output" .output "DropOutputConfig" ([] : List (Toml.Field Unit)) () fun _ _ =>
     .ok (of .dropOutput)]

end Builtin

def Registry.builtin {σ : Type} (of : Builtin → σ) : Registry σ := .ofTypes (Builtin.types of)

end LogIntake
