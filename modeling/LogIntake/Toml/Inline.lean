import LogIntake.Number.Shortest
import LogIntake.Toml.Basic

/-!
TOML values written on one line. A string takes the first form of quotes in which nothing has to be
escaped, and the basic form when there is none.
-/
namespace LogIntake.Toml

/-- Characters that no string holds unescaped: the controls except tab and line feed. -/
def isControl (c : Char) : Bool :=
  (c.toNat < 0x20 && c != '\t' && c != '\n') || c.toNat == 0x7F

def longestRun (c : Char) (cs : List Char) : Nat :=
  (cs.foldl (fun (best, run) d => if d = c then (max best (run + 1), run + 1) else (best, 0))
    (0, 0)).1

def upperHexDigit (n : Nat) : Char := if n < 10 then Char.ofNat (48 + n) else Char.ofNat (55 + n)

/-- The inside of a basic string. In a string over several lines, line feeds stand as they are and a
quote is escaped only behind two others; `run` counts the quotes just written. -/
def escapeBasic (multiline : Bool) : Nat → List Char → List Char
  | _, [] => []
  | run, c :: cs =>
    if c = '"' then
      if multiline && run < 2 then c :: escapeBasic multiline (run + 1) cs
      else '\\' :: c :: escapeBasic multiline 0 cs
    else if c = '\\' then '\\' :: c :: escapeBasic multiline 0 cs
    else if c = '\x08' then '\\' :: 'b' :: escapeBasic multiline 0 cs
    else if c = '\t' then '\\' :: 't' :: escapeBasic multiline 0 cs
    else if c = '\x0c' then '\\' :: 'f' :: escapeBasic multiline 0 cs
    else if c = '\r' then '\\' :: 'r' :: escapeBasic multiline 0 cs
    else if c = '\n' then
      (if multiline then [c] else ['\\', 'n']) ++ escapeBasic multiline 0 cs
    else if isControl c then
      ['\\', 'u', '0', '0', upperHexDigit (c.toNat / 16), upperHexDigit (c.toNat % 16)] ++
        escapeBasic multiline 0 cs
    else c :: escapeBasic multiline 0 cs

def quoteString (s : String) : String :=
  let cs := s.toList
  let broken := cs.contains '\n'
  let control := cs.any isControl
  let lead := if broken then ['\n'] else []
  String.ofList <|
    if !cs.contains '"' && !cs.contains '\\' && !broken && !control then
      '"' :: (escapeBasic false 0 cs ++ ['"'])
    else if !cs.contains '\'' && !broken && !control then '\'' :: (cs ++ ['\''])
    else if !cs.contains '\\' && !control && longestRun '"' cs ≤ 2 then
      "\"\"\"".toList ++ lead ++ escapeBasic true 0 cs ++ "\"\"\"".toList
    else if !control && longestRun '\'' cs ≤ 2 then
      "'''".toList ++ lead ++ cs ++ "'''".toList
    else if broken then "\"\"\"".toList ++ lead ++ escapeBasic true 0 cs ++ "\"\"\"".toList
    else '"' :: (escapeBasic false 0 cs ++ ['"'])

def isBareKeyChar (c : Char) : Bool := c.isAlphanum || c = '_' || c = '-'

def quoteKey (key : String) : String :=
  let cs := key.toList
  let control := cs.any fun c => isControl c || c = '\n'
  if !cs.isEmpty && cs.all isBareKeyChar then key
  else String.ofList <|
    if !cs.contains '"' && !cs.contains '\\' && !control then
      '"' :: (escapeBasic false 0 cs ++ ['"'])
    else if !cs.contains '\'' && !control then '\'' :: (cs ++ ['\''])
    else '"' :: (escapeBasic false 0 cs ++ ['"'])

/-- Never with an exponent. -/
def inlineLayout : Binary64.Layout := { tie := .away }

def integerText (n : Int) : String :=
  if n < 0 then "-" ++ Text.Numeral.text n.natAbs else Text.Numeral.text n.natAbs

def Scalar.inline : Scalar → String
  | .string s => quoteString s
  | .integer n => integerText n
  | .float x => x.render inlineLayout
  | .boolean b => if b then "true" else "false"
  | .datetime d => String.ofList d.text

mutual

def Tree.inline : Value → String
  | .leaf s => s.inline
  | .array items => "[" ++ inlineItems items ++ "]"
  | .table [] => "\x7b\x7d"
  | .table (e :: entries) => "\x7b " ++ inlineEntries (e :: entries) ++ " \x7d"

def inlineItems : List Value → String
  | [] => ""
  | [v] => v.inline
  | v :: w :: rest => v.inline ++ ", " ++ inlineItems (w :: rest)

def inlineEntries : Table → String
  | [] => ""
  | [(k, v)] => quoteKey k ++ " = " ++ v.inline
  | (k, v) :: e :: rest => quoteKey k ++ " = " ++ v.inline ++ ", " ++ inlineEntries (e :: rest)

end

end LogIntake.Toml
