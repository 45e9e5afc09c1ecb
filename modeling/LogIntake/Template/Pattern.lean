import LogIntake.Text.Blank
import LogIntake.Text.Cut

/-!
Texts with placeholders. A placeholder is a name between double braces; blanks around the name do not
count. A text is split from left to right, once.
-/
namespace LogIntake.Template

/-- A piece of a text: words as they are, or the place of a parameter. -/
inductive Piece where
  | words (s : String)
  | parameter (name : String)
deriving DecidableEq, Inhabited, Repr

inductive Fault where
  | unclosedPlaceholder (rest : String)
  | invalidParameterName (name : String)
  | ambiguousParameter (name : String)
  | undeclaredParameter (name : String)
  | emptyPipeline
deriving DecidableEq, Repr

def Fault.message : Fault → String
  | unclosedPlaceholder rest => "unclosed placeholder in \"" ++ rest ++ "\""
  | invalidParameterName name => "invalid parameter name '" ++ name ++ "'"
  | ambiguousParameter name =>
    "parameter '" ++ name ++ "' is declared both as required and optional"
  | undeclaredParameter name =>
    "placeholder \x7b\x7b" ++ name ++ "\x7d\x7d does not refer to a declared parameter"
  | emptyPipeline => "the template does not define any operator"

def maxNameLength : Nat := 128

def isNameChar (c : Char) : Bool := c.isAlphanum || c = '_' || c = '-'

/-- Names are made of ASCII letters, digits, `_` and `-`. -/
def isParameterName (name : List Char) : Bool :=
  !name.isEmpty && name.length ≤ maxNameLength && name.all isNameChar

def checkName (name : List Char) : Except Fault Unit :=
  if isParameterName name then .ok () else .error (.invalidParameterName (String.ofList name))

def opening : List Char := ['{', '{']

def closing : List Char := ['}', '}']

/-- Words as a piece, unless there are none. -/
def wordsPiece (cs : List Char) : List Piece :=
  if cs.isEmpty then [] else [.words (String.ofList cs)]

def split (input : List Char) : Except Fault (List Piece) :=
  match _h : Text.cut? opening input with
  | none => .ok (wordsPiece input)
  | some (before, behind) =>
    match _h' : Text.cut? closing behind with
    | none => .error (.unclosedPlaceholder (String.ofList input))
    | some (inside, rest) => do
      let name := Text.trim inside
      checkName name
      let more ← split rest
      .ok (wordsPiece before ++ .parameter (String.ofList name) :: more)
termination_by input.length
decreasing_by
  have := Text.length_behind_lt (by decide) _h
  have := Text.length_behind_lt (by decide) _h'
  omega

end LogIntake.Template
