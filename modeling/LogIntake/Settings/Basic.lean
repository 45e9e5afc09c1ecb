import LogIntake.Span
import LogIntake.Template.Basic

/-!
The settings of a receiver: reading them from TOML and writing them back as a table.
-/
namespace LogIntake

structure BatchSettings where
  maxFlushCount : Nat := 100
  flushInterval : Span := .ofMilliseconds 100
deriving DecidableEq

inductive OnDeliveryError where
  | drop
  /-- It is offered again, and dropped if it is always refused. -/
  | retry
deriving DecidableEq, Inhabited

structure DeliverySettings where
  onError : OnDeliveryError := .drop
  /-- How often a refused batch is offered again. -/
  maxRetries : Nat := 3
  /-- The pause before it is offered again the first time; it doubles each time. -/
  retryBackoff : Span := .ofSeconds 1
deriving DecidableEq

structure Settings where
  pipeline : List Toml.Table
  /-- The directory of the templates. -/
  templateDirectory : Option String := none
  batch : BatchSettings := {}
  delivery : DeliverySettings := {}
  /-- How long the operators may take to stop, and then the delivery. -/
  shutdownTimeout : Span := .ofSeconds 10

/-! ### Reading -/

def Span.decode : Toml.Source → Toml.Tree Toml.Literal → Except Toml.DecodeError Span :=
  Toml.decodeParsed "a duration" fun text =>
    match Span.read? text.toList with
    | some s => .ok s
    | none => .error (.wrongValue ("string " ++ Text.shown text) "a duration")

namespace BatchSettings

def fields : List (Toml.Field BatchSettings) :=
  [.of "max_flush_count" .defaulted (Toml.decodeNatural "usize" (1 <<< 64))
     fun n b => { b with maxFlushCount := n },
   .of "flush_interval" .defaulted Span.decode fun s b => { b with flushInterval := s }]

def decode (source : Toml.Source) : Toml.Tree Toml.Literal → Except Toml.DecodeError BatchSettings :=
  Toml.decodeRecord "ConverterConfig" fields {} source

end BatchSettings

namespace OnDeliveryError

def variants : List (String × OnDeliveryError) := [("drop", drop), ("retry", retry)]

def name : OnDeliveryError → String
  | drop => "drop"
  | retry => "retry"

end OnDeliveryError

namespace DeliverySettings

def fields : List (Toml.Field DeliverySettings) :=
  [.of "on_error" .defaulted (Toml.decodeVariant OnDeliveryError.variants)
     fun o d => { d with onError := o },
   .of "max_retries" .defaulted (Toml.decodeNatural "u32" (1 <<< 32))
     fun n d => { d with maxRetries := n },
   .of "retry_backoff" .defaulted Span.decode fun s d => { d with retryBackoff := s }]

def decode (source : Toml.Source) :
    Toml.Tree Toml.Literal → Except Toml.DecodeError DeliverySettings :=
  Toml.decodeRecord "DeliveryConfig" fields {} source

end DeliverySettings

namespace Settings

def fields : List (Toml.Field Settings) :=
  [.of "pipeline" .required
     (fun source => Toml.decodeSequence (Toml.decodeTable source) source)
     fun tables s => { s with pipeline := tables },
   .of "plugin_dir" .optional (Toml.decodeText "path string")
     fun path s => { s with templateDirectory := some path },
   .of "converter" .defaulted BatchSettings.decode fun b s => { s with batch := b },
   .of "delivery" .defaulted DeliverySettings.decode fun d s => { s with delivery := d },
   .of "shutdown_timeout" .defaulted Span.decode fun t s => { s with shutdownTimeout := t }]

def decode (source : Toml.Source) : Toml.Tree Toml.Literal → Except Toml.DecodeError Settings :=
  Toml.decodeRecord "ReceiverConfig" fields { pipeline := [] } source

def ofText (text : String) : Except TomlError Settings := decodeToml (decode .text) text

def ofTable (table : Toml.Table) : Except Toml.DecodeError Settings :=
  decode .memory (.table (Toml.mapEntries .scalar table))

/-! ### Writing -/

def natural (n : Nat) : Toml.Value := .leaf (.integer n)

def string (s : String) : Toml.Value := .leaf (.string s)

/-- A leaf as it is written back: a date shows its parts under a key of its own. -/
def writtenLeaf : Toml.Scalar → Toml.Value
  | .datetime d => .table [(Toml.datetimeKey, string (String.ofList d.text))]
  | s => .leaf s

/-- The settings as a table, every field in its place. There is none where a number has no room in a
table. -/
def toTable? (s : Settings) : Option Toml.Table :=
  if s.batch.maxFlushCount < 1 <<< 63 then
    some <|
      [("pipeline", .array (s.pipeline.map fun t => .table (Toml.bindEntries writtenLeaf t)))] ++
      (match s.templateDirectory with
        | some path => [("plugin_dir", string path)]
        | none => []) ++
      [("converter", .table
          [("max_flush_count", natural s.batch.maxFlushCount),
           ("flush_interval", string s.batch.flushInterval.text)]),
       ("delivery", .table
          [("on_error", string s.delivery.onError.name),
           ("max_retries", natural s.delivery.maxRetries),
           ("retry_backoff", string s.delivery.retryBackoff.text)]),
       ("shutdown_timeout", string s.shutdownTimeout.text)]
  else none

end Settings

end LogIntake
