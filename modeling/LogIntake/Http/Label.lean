import LogIntake.Entry
import LogIntake.Text.Numeral

/-!
Attributes that say where a request came from, where it went and how. Each pair is set as a whole or
not at all.
-/
namespace LogIntake.Http

inductive LabelError where
  | missingPort (address : String)
  | missingHost (address : String)
  | invalidPort (address : String)
  | malformedAddress (address : String)
  | invalidProtocol (protocol : String)
deriving DecidableEq, Repr

def LabelError.message : LabelError → String
  | missingPort address => "address '" ++ address ++ "' has no port"
  | missingHost address => "address '" ++ address ++ "' has no host"
  | invalidPort address => "invalid port in address '" ++ address ++ "'"
  | malformedAddress address => "malformed address '" ++ address ++ "'"
  | invalidProtocol protocol => "invalid protocol '" ++ protocol ++ "', expected NAME/VERSION"

def splitFirst? (c : Char) (cs : List Char) : Option (List Char × List Char) :=
  match cs.dropWhile (· ≠ c) with
  | [] => none
  | _ :: behind => some (cs.takeWhile (· ≠ c), behind)

def splitLast? (c : Char) (cs : List Char) : Option (List Char × List Char) :=
  (splitFirst? c cs.reverse).map fun (behind, before) => (before.reverse, behind.reverse)

/-- The host and the port, not yet checked. A host in brackets may hold colons. -/
def rawHostPort (address : List Char) : Except LabelError (List Char × List Char) :=
  let text := String.ofList address
  match address with
  | '[' :: rest =>
    match splitFirst? ']' rest with
    | none => .error (.malformedAddress text)
    | some (host, ':' :: port) => .ok (host, port)
    | some _ => .error (.missingPort text)
  | _ =>
    match splitLast? ':' address with
    | none => .error (.missingPort text)
    | some (host, port) =>
      if host.contains ':' then .error (.malformedAddress text) else .ok (host, port)

def portBound : Nat := 1 <<< 16

def splitHostPort (address : List Char) : Except LabelError (List Char × List Char) :=
  let text := String.ofList address
  match rawHostPort address with
  | .error e => .error e
  | .ok (host, port) =>
    if host.isEmpty then .error (.missingHost text)
    else if port.isEmpty then .error (.missingPort text)
    else if (Text.Numeral.unsigned? portBound port).isNone then .error (.invalidPort text)
    else .ok (host, port)

/-- A version is made of digits and dots, at least one digit. -/
def isVersion (cs : List Char) : Bool :=
  cs.all (fun c => c.isDigit || c = '.') && cs.any Char.isDigit

def splitProtocol (protocol : List Char) : Except LabelError (List Char × List Char) :=
  match splitFirst? '/' protocol with
  | some (name, version) =>
    if !name.isEmpty && isVersion version then .ok (name, version)
    else .error (.invalidProtocol (String.ofList protocol))
  | none => .error (.invalidProtocol (String.ofList protocol))

/-- The labels of a request, and the keys of each pair. -/
inductive Label where
  | peer
  | host
  | protocol
deriving DecidableEq

namespace Label

def keys : Label → String × String
  | peer => ("net.peer.ip", "net.peer.port")
  | host => ("net.host.ip", "net.host.port")
  | protocol => ("protocol", "protocol_version")

def split : Label → List Char → Except LabelError (List Char × List Char)
  | peer => splitHostPort
  | host => splitHostPort
  | protocol => splitProtocol

def add (label : Label) (source : String) (e : Entry) : Except LabelError Entry :=
  match label.split source.toList with
  | .error fault => .error fault
  | .ok (first, second) =>
    .ok ((e.addAttribute label.keys.1 (String.ofList first)).addAttribute label.keys.2
      (String.ofList second))

def tryAdd (label : Label) (source : String) (e : Entry) : Entry :=
  (label.add source e).toOption.getD e

end Label

/-- What is known of a request: the client, the host it asked for, and the protocol. -/
structure RequestInfo where
  remoteAddress : String
  host : String
  protocol : String
deriving Inhabited

def entryOf (payload : List (String × Json.Value)) (info : RequestInfo) : Entry :=
  let e : Entry := { body := .object payload }
  Label.protocol.tryAdd info.protocol
    (Label.host.tryAdd info.host (Label.peer.tryAdd info.remoteAddress e))

inductive ParseError where
  | missingInput
deriving DecidableEq, Repr

def ParseError.message : ParseError → String
  | missingInput => "payload and http request must be set"

/-- Makes an entry when both a payload and a request are there. -/
def parse (payload : Option (List (String × Json.Value))) (info : Option RequestInfo) :
    Except ParseError Entry :=
  match payload, info with
  | some payload, some info => .ok (entryOf payload info)
  | _, _ => .error .missingInput

end LogIntake.Http
