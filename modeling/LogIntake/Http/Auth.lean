import LogIntake.Text.Base64
import LogIntake.Text.Blank
import LogIntake.Text.Cut
import LogIntake.Toml.Decode

/-!
Who may send entries: everyone, the holder of a user name and a password, or the holder of a token in
a header.
-/
namespace LogIntake.Http

open Text (Bytes)

/-- The headers of a request in their order; the names in lower case. -/
abbrev Headers := List (String × Bytes)

def lowerCase (s : String) : String := String.ofList (s.toList.map Char.toLower)

namespace Headers

def ofList (fields : List (String × Bytes)) : Headers :=
  fields.map fun (name, value) => (lowerCase name, value)

def all (name : String) (headers : Headers) : List Bytes :=
  headers.filterMap fun (n, value) => if n = name then some value else none

def first? (name : String) (headers : Headers) : Option Bytes := (all name headers).head?

/-- The text of a value: visible ASCII characters, blanks and tabs. -/
def text? (value : Bytes) : Option (List Char) :=
  if value.all fun b => (0x20 ≤ b && b < 0x7F) || b == 0x09 then
    some (value.map fun b => Char.ofNat b.toNat)
  else none

def firstText? (name : String) (headers : Headers) : Option (List Char) :=
  (first? name headers).bind text?

/-- The marks that a name may hold beside letters and digits. -/
def nameMarks : List Char := "!\"#$%&'*+-.^_`|~".toList

def maxNameLength : Nat := 65535

def isName (name : String) : Bool :=
  name != "" && name.utf8ByteSize ≤ maxNameLength &&
    name.toList.all fun c => c.isAlphanum || nameMarks.contains c

end Headers

structure AuthSettings where
  username : Option String := none
  password : Option String := none
  tokenHeader : Option String := none
  tokens : List String := []
deriving Inhabited

def AuthSettings.fields : List (Toml.Field AuthSettings) :=
  [.of "username" .optional Toml.decodeString fun s a => { a with username := some s },
   .of "password" .optional Toml.decodeString fun s a => { a with password := some s },
   .of "token_header" .optional Toml.decodeString fun s a => { a with tokenHeader := some s },
   .of "tokens" .defaulted (fun source => Toml.decodeSequence (Toml.decodeString source) source)
     fun ts a => { a with tokens := ts }]

inductive Auth where
  | everyone
  | basic (username password : String)
  /-- The name of the header is in lower case. -/
  | token (header : String) (tokens : List String)
deriving DecidableEq, Inhabited

inductive AuthError where
  | incompleteBasic
  | incompleteToken
  | conflict
  | invalidHeader (name : String)
deriving DecidableEq, Repr

def AuthError.message : AuthError → String
  | incompleteBasic => "username and password must be set together"
  | incompleteToken => "token_header and tokens must be set together"
  | conflict => "basic and token authentication cannot be used at the same time"
  | invalidHeader name => "invalid token_header '" ++ name ++ "'"

namespace Auth

def ofSettings (s : AuthSettings) : Except AuthError Auth := do
  let basic ← match s.username, s.password with
    | some username, some password => .ok (some (username, password))
    | none, none => .ok none
    | _, _ => .error .incompleteBasic
  let token ← match s.tokenHeader, s.tokens.isEmpty with
    | some header, false =>
      if Headers.isName header then .ok (some (lowerCase header)) else .error (.invalidHeader header)
    | none, true => .ok none
    | _, _ => .error .incompleteToken
  match basic, token with
  | some _, some _ => .error .conflict
  | some (username, password), none => .ok (.basic username password)
  | none, some header => .ok (.token header s.tokens)
  | none, none => .ok .everyone

/-- The name and the password that a request gives, apart at the first colon. -/
def credentials? (headers : Headers) : Option (String × String) := do
  let value ← Headers.firstText? "authorization" headers
  let (scheme, encoded) ← Text.cut? [' '] value
  if lowerCase (String.ofList scheme) = "basic" then
    let bytes ← Text.Base64.decode? (Text.trim encoded)
    let text ← Text.decode? bytes
    let (username, password) ← Text.cut? [':'] text.toList
    some (String.ofList username, String.ofList password)
  else none

/-- Whether two rows of bytes are the same. Rows of one length are gone through to their ends, wherever
they differ first. -/
def sameBytes (a b : Bytes) : Bool :=
  if a.length ≠ b.length then false
  else (a.zip b).foldl (fun differing (x, y) => differing ||| (x ^^^ y)) 0 == 0

def admits (auth : Auth) (headers : Headers) : Bool :=
  match auth with
  | everyone => true
  | basic username password =>
    match credentials? headers with
    | none => false
    | some (u, p) =>
      let known := sameBytes (Text.encode u) (Text.encode username)
      let secret := sameBytes (Text.encode p) (Text.encode password)
      known && secret
  | token header tokens =>
    (Headers.all header headers).any fun value =>
      tokens.any fun t => sameBytes value (Text.encode t)

end Auth

end LogIntake.Http
