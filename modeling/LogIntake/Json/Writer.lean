import LogIntake.Json.Basic
import LogIntake.Number.Shortest

/-!
JSON values as compact text: no blanks, and only what must be escaped is escaped.
-/
namespace LogIntake.Json

def hexDigit (n : Nat) : Char := if n < 10 then Char.ofNat (48 + n) else Char.ofNat (87 + n)

def escape (c : Char) : List Char :=
  if c = '"' then ['\\', '"']
  else if c = '\\' then ['\\', '\\']
  else if c = '\x08' then ['\\', 'b']
  else if c = '\x0c' then ['\\', 'f']
  else if c = '\n' then ['\\', 'n']
  else if c = '\r' then ['\\', 'r']
  else if c = '\t' then ['\\', 't']
  else if c.toNat < 0x20 then
    ['\\', 'u', '0', '0', hexDigit (c.toNat / 16), hexDigit (c.toNat % 16)]
  else [c]

def quote (s : String) : String := String.ofList ('"' :: (s.toList.flatMap escape ++ ['"']))

/-- Plain from `0.00001` to below `10 ^ 16`, else with a signed exponent. -/
def layout : Binary64.Layout := { tie := .toEven, plain := some (-4, 16), signedExponent := true }

def Number.text : Number → String
  | .whole n => if n < 0 then "-" ++ Text.Numeral.text n.natAbs else Text.Numeral.text n.natAbs
  | .floating x => x.render layout

mutual

def Value.render : Value → String
  | .null => "null"
  | .bool true => "true"
  | .bool false => "false"
  | .number n => n.text
  | .string s => quote s
  | .array items => "[" ++ renderItems items ++ "]"
  | .object members => "\x7b" ++ renderMembers members ++ "\x7d"

def renderItems : List Value → String
  | [] => ""
  | [v] => v.render
  | v :: w :: rest => v.render ++ "," ++ renderItems (w :: rest)

def renderMembers : List (String × Value) → String
  | [] => ""
  | [(k, v)] => quote k ++ ":" ++ v.render
  | (k, v) :: m :: rest => quote k ++ ":" ++ v.render ++ "," ++ renderMembers (m :: rest)

end

end LogIntake.Json
