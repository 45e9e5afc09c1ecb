import LogIntake.Text.Cut
import LogIntake.Text.Utf8

/-!
Filling the variables of an environment into a text. The text is read once from left to right, and
what is filled in is not looked at again. A backslash keeps a reference as it is and goes away.
-/
namespace LogIntake.Substitution

open Text (Bytes)

inductive Variable where
  | missing
  | unreadable
  | value (text : String)
deriving DecidableEq, Repr

/-- The variables of an environment, their values as bytes. -/
abbrev Environment := List (String × Bytes)

def Environment.lookup (env : Environment) (name : String) : Variable :=
  match List.lookup name env with
  | none => .missing
  | some bytes =>
    match Text.decode? bytes with
    | some text => .value text
    | none => .unreadable

inductive Fault where
  | missing (name : String)
  | invalidValue (name : String)
  | invalidName (name : String)
  | wrongForm
deriving DecidableEq, Repr

def Fault.message : Fault → String
  | missing name => "the environment variable " ++ name ++ " does not exist"
  | invalidValue name => "value of env var " ++ name ++ " is not valid UTF-8"
  | invalidName name => "env var name '" ++ name ++ "' is not valid"
  | wrongForm => "wrong use of the substitution syntax, it should be $\x7bENV_VAR\x7d"

def opening : List Char := ['$', '{']

def closing : List Char := ['}']

def isName (name : List Char) : Bool :=
  !name.isEmpty && name.all fun c => c.isAlphanum || c = '_'

def resolve (lookup : String → Variable) (name : List Char) : Except Fault (List Char) :=
  let text := String.ofList name
  if isName name then
    match lookup text with
    | .value value => .ok value.toList
    | .missing => .error (.missing text)
    | .unreadable => .error (.invalidValue text)
  else .error (.invalidName text)

def scan (lookup : String → Variable) (input : List Char) : Except Fault (List Char) :=
  match _h : Text.cut? opening input with
  | none => .ok input
  | some (before, behind) =>
    if before.getLast? = some '\\' then do
      let rest ← scan lookup behind
      .ok (before.dropLast ++ opening ++ rest)
    else
      match _h' : Text.cut? closing behind with
      | none => .error .wrongForm
      | some (name, rest) => do
        let value ← resolve lookup name
        let rest ← scan lookup rest
        .ok (before ++ value ++ rest)
termination_by input.length
decreasing_by
  · exact Text.length_behind_lt (by decide) _h
  · have := Text.length_behind_lt (by decide) _h
    have := Text.length_behind_lt (by decide) _h'
    omega

/-- The text with its references filled in. A text without any is handed back at once. -/
def fill (lookup : String → Variable) (input : List Char) : Except Fault (List Char) :=
  if (Text.cut? opening input).isSome then scan lookup input else .ok input

end LogIntake.Substitution
