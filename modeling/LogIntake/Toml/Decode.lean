import LogIntake.Text.Shown
import LogIntake.Number.Shortest
import LogIntake.Toml.Literal

/-!
Reading typed settings from TOML. Entries are visited in the order of the table and the first fault
wins; a field that is missing is told only after all entries have been visited. A fault carries the
keys that lead to it.
-/
namespace LogIntake.Toml

/-- Where the values come from: straight from a text, or from a table that is already in memory. In
memory a date counts as a string. -/
inductive Source where
  | text
  | memory
deriving DecidableEq

inductive DecodeFault where
  | missingField (name : String)
  | unknownField (name : String) (known : List String)
  | unknownVariant (name : String) (known : List String)
  | wrongType (found expected : String)
  | wrongValue (found expected : String)
  | wrongLength (length : Nat) (expected : String)
  | wideUnsigned
  | wideInteger
  | hugeFloat
  | noVariant
  | emptyVariant
  | wrongVariantCount
  | fullArray
  | fullTable
  | notEmptyTable (found : String)
  | badDatetime (fault : DatetimeFault)
  | other (text : String)
deriving DecidableEq, Repr

namespace DecodeFault

def inTicks (name : String) : String := "`" ++ name ++ "`"

def choice : List String → String
  | [] => ""
  | [a] => inTicks a
  | [a, b] => inTicks a ++ " or " ++ inTicks b
  | names => "one of " ++ ", ".intercalate (names.map inTicks)

def message : DecodeFault → String
  | missingField name => "missing field " ++ inTicks name
  | unknownField name [] => "unknown field " ++ inTicks name ++ ", there are no fields"
  | unknownField name known => "unknown field " ++ inTicks name ++ ", expected " ++ choice known
  | unknownVariant name [] => "unknown variant " ++ inTicks name ++ ", there are no variants"
  | unknownVariant name known =>
    "unknown variant " ++ inTicks name ++ ", expected " ++ choice known
  | wrongType found expected => "invalid type: " ++ found ++ ", expected " ++ expected
  | wrongValue found expected => "invalid value: " ++ found ++ ", expected " ++ expected
  | wrongLength length expected =>
    "invalid length " ++ Text.Numeral.text length ++ ", expected " ++ expected
  | wideUnsigned => "u64 value was too large"
  | wideInteger => "integer number overflowed"
  | hugeFloat => "floating-point number overflowed"
  | noVariant => "wanted string or table"
  | emptyVariant => "wanted exactly 1 element, found 0 elements"
  | wrongVariantCount => "wanted exactly 1 element, more than 1 element"
  | fullArray => "expected empty array"
  | fullTable => "expected empty table"
  | notEmptyTable found => "expected table, found " ++ found
  | badDatetime fault => fault.message
  | other text => text

end DecodeFault

/-- A fault and the keys that lead to it from the outermost table. -/
structure DecodeError where
  fault : DecodeFault
  path : List String := []
deriving DecidableEq, Repr

namespace DecodeError

/-- The message; for a table in memory the path follows on a line of its own. -/
def message (source : Source) (e : DecodeError) : String :=
  match source, e.path with
  | .text, _ => e.fault.message
  | .memory, [] => e.fault.message
  | .memory, path => e.fault.message ++ "\nin `" ++ ".".intercalate path ++ "`"

end DecodeError

def fail {α : Type} (fault : DecodeFault) : Except DecodeError α := .error ⟨fault, []⟩

def under {α : Type} (key : String) : Except DecodeError α → Except DecodeError α
  | .ok a => .ok a
  | .error e => .error { e with path := key :: e.path }

/-- The key under which a date in a text shows its parts. -/
def datetimeKey : String := "$__toml_private_datetime"

def messageLayout : Binary64.Layout := { tie := .away, nan := "NaN", signedNan := false }

def showInteger (n : Int) : String :=
  if n < 0 then "-" ++ Text.Numeral.text n.natAbs else Text.Numeral.text n.natAbs

/-- What was found, in the words of a message. A number that no scalar holds has none. -/
def found (source : Source) : Tree Literal → Except DecodeError String
  | .leaf (.scalar (.string s)) => .ok ("string " ++ Text.shown s)
  | .leaf (.scalar (.integer n)) => .ok ("integer `" ++ showInteger n ++ "`")
  | .leaf (.scalar (.float x)) => .ok ("floating point `" ++ x.render messageLayout ++ "`")
  | .leaf (.scalar (.boolean b)) => .ok ("boolean `" ++ (if b then "true" else "false") ++ "`")
  | .leaf (.scalar (.datetime d)) =>
    match source with
    | .text => .ok "map"
    | .memory => .ok ("string " ++ Text.shown (String.ofList d.text))
  | .leaf (.wide n) =>
    if 0 ≤ n ∧ n < (1 <<< 64 : Nat) then .ok ("integer `" ++ showInteger n ++ "`")
    else if -(1 <<< 127 : Nat) ≤ n ∧ n < (1 <<< 127 : Nat) then
      .ok ("integer `" ++ showInteger n ++ "` as i128")
    else if 0 ≤ n ∧ n < (1 <<< 128 : Nat) then .ok ("integer `" ++ showInteger n ++ "` as u128")
    else fail .wideInteger
  | .leaf .huge => fail .hugeFloat
  | .array _ => .ok "sequence"
  | .table _ => .ok "map"

def refuse {α : Type} (source : Source) (expected : String) (t : Tree Literal) :
    Except DecodeError α := do
  let f ← found source t
  fail (.wrongType f expected)

/-! ### Single values -/

def text? (source : Source) : Tree Literal → Option String
  | .leaf (.scalar (.string s)) => some s
  | .leaf (.scalar (.datetime d)) =>
    match source with
    | .text => none
    | .memory => some (String.ofList d.text)
  | _ => none

def decodeText (expected : String) (source : Source) (t : Tree Literal) :
    Except DecodeError String :=
  match text? source t with
  | some s => .ok s
  | none => refuse source expected t

def decodeString : Source → Tree Literal → Except DecodeError String := decodeText "a string"

def decodeParsed {α : Type} (expected : String) (read : String → Except DecodeFault α)
    (source : Source) (t : Tree Literal) : Except DecodeError α := do
  let s ← decodeText expected source t
  match read s with
  | .ok a => .ok a
  | .error fault => fail fault

def decodeNatural (expected : String) (bound : Nat) (source : Source) (t : Tree Literal) :
    Except DecodeError Nat :=
  match t with
  | .leaf (.scalar (.integer n)) =>
    if 0 ≤ n ∧ n < bound then .ok n.toNat
    else fail (.wrongValue ("integer `" ++ showInteger n ++ "`") expected)
  | .leaf (.wide n) =>
    if 0 ≤ n ∧ n < bound then .ok n.toNat
    else if 0 ≤ n ∧ n < (1 <<< 64 : Nat) then
      fail (.wrongValue ("integer `" ++ showInteger n ++ "`") expected)
    else refuse source expected t
  | t => refuse source expected t

def decodeVariant {α : Type} (variants : List (String × α)) (source : Source) (t : Tree Literal) :
    Except DecodeError α :=
  let named (name : String) : Except DecodeError α :=
    match variants.lookup name with
    | some a => .ok a
    | none => fail (.unknownVariant name (variants.map Prod.fst))
  match t with
  | .leaf (.scalar (.string s)) => named s
  | .table [] => fail .emptyVariant
  | .table ((key, content) :: rest) =>
    if rest ≠ [] then fail .wrongVariantCount
    else do
      let a ← named key
      match content with
      | .table [] => .ok a
      | .array [] => .ok a
      | .table _ => fail .fullTable
      | .array _ => fail .fullArray
      | .leaf (.scalar s) => fail (.notEmptyTable s.typeName)
      | .leaf (.wide _) => fail (.notEmptyTable "integer")
      | .leaf .huge => fail (.notEmptyTable "float")
  | _ =>
    match source with
    | .text => fail .noVariant
    | .memory => fail (.wrongType "unit variant" "string only")

/-! ### Arrays and tables -/

def decodeItems {α : Type} (item : Tree Literal → Except DecodeError α) :
    List (Tree Literal) → Except DecodeError (List α)
  | [] => .ok []
  | t :: rest => do
    let a ← item t
    let rest ← decodeItems item rest
    .ok (a :: rest)

def decodeSequence {α : Type} (item : Tree Literal → Except DecodeError α) (source : Source)
    (t : Tree Literal) : Except DecodeError (List α) :=
  match t with
  | .array items => decodeItems item items
  | t => refuse source "a sequence" t

/-- A leaf kept as it is. In memory a date becomes a string. -/
def plainLeaf (source : Source) : Literal → Except DecodeError Scalar
  | .scalar (.datetime d) =>
    match source with
    | .text => .ok (.datetime d)
    | .memory => .ok (.string (String.ofList d.text))
  | .scalar s => .ok s
  | .wide n => do
    let f ← found source (.leaf (.wide n))
    if 0 ≤ n ∧ n < (1 <<< 64 : Nat) then fail .wideUnsigned
    else fail (.wrongType f "any valid TOML value")
  | .huge => fail .hugeFloat

def entries? (source : Source) : Tree Literal → Option (Entries Literal)
  | .table entries => some entries
  | .leaf (.scalar (.datetime d)) =>
    match source with
    | .text => some [(datetimeKey, .leaf (.scalar (.string (String.ofList d.text))))]
    | .memory => none
  | _ => none

def decodeDatetime : Source → Tree Literal → Except DecodeError Datetime :=
  decodeParsed "string containing a datetime" fun text =>
    (Datetime.read text.toList).mapError .badDatetime

/-- The date that the entries of a table stand for, if their first key is the one of dates. The
entries behind it are passed over in a text and one too many in memory. -/
def datetimeOf? (source : Source) : Entries Literal → Option (Except DecodeError Datetime)
  | [] => none
  | (key, t) :: rest =>
    if key = datetimeKey then
      some do
        let d ← under key (decodeDatetime source t)
        if source = .memory ∧ rest ≠ [] then
          fail (.wrongLength (rest.length + 1) "fewer elements in map")
        else .ok d
    else none

mutual

/-- A value kept as it is; a table that stands for a date becomes the date. -/
def keepTree (source : Source) : Tree Literal → Except DecodeError Value
  | .leaf a => (plainLeaf source a).map .leaf
  | .array items => (keepItems source items).map .array
  | .table entries =>
    match datetimeOf? source entries with
    | some d => d.map fun d => .leaf (.datetime d)
    | none => (keepEntries source entries).map .table

def keepItems (source : Source) : List (Tree Literal) → Except DecodeError (List Value)
  | [] => .ok []
  | t :: rest => do
    let v ← keepTree source t
    let rest ← keepItems source rest
    .ok (v :: rest)

def keepEntries (source : Source) : Entries Literal → Except DecodeError Table
  | [] => .ok []
  | (k, t) :: rest => do
    let v ← under k (keepTree source t)
    let rest ← keepEntries source rest
    .ok ((k, v) :: rest)

end

/-- A table kept as it is. The table itself is one even if it could stand for a date. -/
def decodeTable (source : Source) (t : Tree Literal) : Except DecodeError Table :=
  match entries? source t with
  | some entries => keepEntries source entries
  | none => refuse source "a map" t

def decodeTextMap (source : Source) (t : Tree Literal) :
    Except DecodeError (List (String × String)) :=
  match entries? source t with
  | some entries => entries.mapM fun (k, v) => do
    let s ← under k (decodeString source v)
    pure (k, s)
  | none => refuse source "a map" t

/-! ### Records -/

/-- What it means that a field is absent: a fault, or a default. Where a record is given as a
sequence, only a field with a default of its own may be absent. -/
inductive Absence where
  | required
  | optional
  | defaulted
deriving DecidableEq

/-- A field of a record: its name and what its value changes. -/
structure Field (σ : Type) where
  name : String
  absence : Absence
  set : Source → Tree Literal → σ → Except DecodeError σ

def Field.of {σ α : Type} (name : String) (absence : Absence)
    (decode : Source → Tree Literal → Except DecodeError α) (store : α → σ → σ) : Field σ :=
  ⟨name, absence, fun source t s => do
    let a ← decode source t
    .ok (store a s)⟩

def visitEntries {σ : Type} (fields : List (Field σ)) (source : Source) :
    Entries Literal → σ → Except DecodeError σ
  | [], s => .ok s
  | (key, t) :: rest, s =>
    match fields.find? (·.name = key) with
    | none => fail (.unknownField key (fields.map Field.name))
    | some field => do
      let s ← under key (field.set source t s)
      visitEntries fields source rest s

def missing? {σ : Type} (fields : List (Field σ)) (entries : Entries Literal) : Option String :=
  (fields.find? fun f => f.absence = .required && !Entries.has f.name entries).map Field.name

/-- Visits the items of a sequence, each one for the next field. -/
def visitItems {σ : Type} (name : String) (count : Nat) (source : Source) :
    Nat → List (Field σ) → List (Tree Literal) → σ → Except DecodeError σ
  | _, [], [], s => .ok s
  | index, [], extra, s =>
    match source with
    | .text => .ok s
    | .memory => fail (.wrongLength (index + extra.length) "fewer elements in array")
  | index, field :: fields, [], s =>
    if field.absence = .defaulted then visitItems name count source (index + 1) fields [] s
    else fail (.wrongLength index ("struct " ++ name ++ " with " ++ Text.Numeral.text count ++
      if count = 1 then " element" else " elements"))
  | index, field :: fields, t :: rest, s => do
    let s ← field.set source t s
    visitItems name count source (index + 1) fields rest s

def decodeRecord {σ : Type} (name : String) (fields : List (Field σ)) (start : σ)
    (source : Source) (t : Tree Literal) : Except DecodeError σ :=
  match entries? source t, t with
  | some entries, _ => do
    let s ← visitEntries fields source entries start
    match missing? fields entries with
    | some field => fail (.missingField field)
    | none => .ok s
  | none, .array items => visitItems name fields.length source 0 fields items start
  | none, t => refuse source ("struct " ++ name) t

def decodeInMemory {σ : Type} (name : String) (fields : List (Field σ)) (start : σ)
    (table : Table) : Except DecodeError σ :=
  decodeRecord name fields start .memory (.table (mapEntries .scalar table))

end LogIntake.Toml
