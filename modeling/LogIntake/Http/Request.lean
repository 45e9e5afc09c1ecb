import LogIntake.Http.Auth

/-!
Requests as they reach the handler: a target, headers, and a body that may come in pieces.
-/
namespace LogIntake.Http

open Text (Bytes)

/-- The path of a target, without its query, and the authority of a full address. -/
structure Target where
  path : String
  authority : Option String := none
deriving DecidableEq, Repr

namespace Target

def isPathEnd (c : Char) : Bool := c = '?' || c = '#'

def pathOf (cs : List Char) : String := String.ofList (cs.takeWhile fun c => !isPathEnd c)

def isAuthorityEnd (c : Char) : Bool := c = '/' || isPathEnd c

def behindScheme? : List Char → Option (List Char)
  | [] => none
  | ':' :: '/' :: '/' :: rest => some rest
  | _ :: rest => behindScheme? rest

/-- Reads a path with a query, `*`, a full address, or a lone authority, whose path is empty. -/
def ofText (text : String) : Target :=
  let cs := text.toList
  if cs.head? = some '/' ∨ text = "*" then ⟨pathOf cs, none⟩
  else
    match behindScheme? cs with
    | none => ⟨"", some text⟩
    | some rest =>
      let path := pathOf (rest.dropWhile fun c => !isAuthorityEnd c)
      ⟨if path = "" then "/" else path,
        some (String.ofList (rest.takeWhile fun c => !isAuthorityEnd c))⟩

end Target

inductive Body where
  /-- Known to be empty from the start. -/
  | empty
  | whole (content : Bytes)
  /-- Comes in pieces; reading it may fail after the last one. -/
  | streamed (chunks : List Bytes) (breaksOff : Bool)

namespace Body

def ofBytes (content : Bytes) : Body := if content.isEmpty then .empty else .whole content

def isEmpty : Body → Bool
  | empty => true
  | _ => false

def chunks : Body → List Bytes
  | empty => []
  | whole content => [content]
  | streamed chunks _ => chunks

def breaksOff : Body → Bool
  | streamed _ b => b
  | _ => false

end Body

structure Request where
  method : String := "POST"
  target : Target := ⟨"/", none⟩
  /-- The name and the version of the protocol. -/
  protocol : String := "HTTP/1.1"
  headers : Headers := []
  body : Body := .empty
  remoteAddress : String

structure Response where
  status : Nat
  text : String
deriving DecidableEq, Repr

end LogIntake.Http
