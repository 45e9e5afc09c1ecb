import LogIntake.Json.Basic
import LogIntake.Text.Numeral
import LogIntake.Text.Utf8

/-!
Reading JSON from bytes. A text that is not JSON is refused with the cause and the line and column
where reading came to a stop.
-/
namespace LogIntake.Json

open Text (Bytes)

inductive Fault where
  | endInValue
  | endInString
  | endInList
  | endInObject
  | expectedColon
  | expectedCommaOrBracket
  | expectedCommaOrBrace
  | expectedWord
  | expectedValue
  | invalidEscape
  | invalidNumber
  | numberOutOfRange
  | invalidCodePoint
  | controlCharacter
  | keyNotString
  | loneSurrogate
  | endOfEscape
  | trailingComma
  | trailingCharacters
  | tooDeep
deriving DecidableEq, Repr

def Fault.message : Fault → String
  | endInValue => "EOF while parsing a value"
  | endInString => "EOF while parsing a string"
  | endInList => "EOF while parsing a list"
  | endInObject => "EOF while parsing an object"
  | expectedColon => "expected `:`"
  | expectedCommaOrBracket => "expected `,` or `]`"
  | expectedCommaOrBrace => "expected `,` or `\x7d`"
  | expectedWord => "expected ident"
  | expectedValue => "expected value"
  | invalidEscape => "invalid escape"
  | invalidNumber => "invalid number"
  | numberOutOfRange => "number out of range"
  | invalidCodePoint => "invalid unicode code point"
  | controlCharacter => "control character (\\u0000-\\u001F) found while parsing a string"
  | keyNotString => "key must be a string"
  | loneSurrogate => "lone leading surrogate in hex escape"
  | endOfEscape => "unexpected end of hex escape"
  | trailingComma => "trailing comma"
  | trailingCharacters => "trailing characters"
  | tooDeep => "recursion limit exceeded"

/-- Where reading stopped: the input left over, and whether its next byte is the one to blame. -/
structure Stop where
  fault : Fault
  rest : Bytes
  atNext : Bool

def stopHere {α : Type} (fault : Fault) (rest : Bytes) : Except Stop α := .error ⟨fault, rest, false⟩

def stopAtNext {α : Type} (fault : Fault) (rest : Bytes) : Except Stop α := .error ⟨fault, rest, true⟩

def isBlankByte (b : UInt8) : Bool := b == 0x20 || b == 0x0A || b == 0x09 || b == 0x0D

def skipBlanks (input : Bytes) : Bytes := input.dropWhile isBlankByte

def isDigitByte (b : UInt8) : Bool := 0x30 ≤ b && b ≤ 0x39

def ascii (word : String) : Bytes := word.toList.map fun c => UInt8.ofNat c.toNat

def word {α : Type} (value : α) : Bytes → Bytes → Except Stop (α × Bytes)
  | [], rest => .ok (value, rest)
  | _ :: _, [] => stopHere .endInValue []
  | w :: ws, b :: rest => if b = w then word value ws rest else stopHere .expectedWord rest

/-! ### Numbers -/

/-- A number as its digits are being read: its sign and the digits that had room in 64 bits. -/
structure Mantissa where
  positive : Bool
  significand : Nat
deriving DecidableEq

def hasRoom (significand : Nat) (b : UInt8) : Bool :=
  decide (significand * 10 + (b.toNat - 0x30) < 1 <<< 64)

def Mantissa.push (m : Mantissa) (b : UInt8) : Mantissa :=
  { m with significand := m.significand * 10 + (b.toNat - 0x30) }

def tenTo (k : Nat) : Binary64 := Binary64.ofDecimal false 1 k

/-- Divides by powers of ten, at most `10 ^ 308` at a time, each step rounded. -/
def divideByTens (x : Binary64) (k : Nat) : Binary64 :=
  if k ≤ 308 then x.div (tenTo k)
  else if x.isZero then x
  else divideByTens (x.div (tenTo 308)) (k - 308)
termination_by k
decreasing_by omega

/-- The mantissa times a power of ten: the mantissa is rounded first, then the product. -/
def scaled? (m : Mantissa) (exponent : Int) : Option Binary64 :=
  let x := Binary64.ofRatio false m.significand 1
  let magnitude :=
    if exponent < 0 then some (divideByTens x (-exponent).toNat)
    else if exponent ≤ 308 then
      let y := x.mul (tenTo exponent.toNat)
      if y.isInfinite then none else some y
    else if x.isZero then some x else none
  magnitude.map fun y => if m.positive then y else y.neg

def scaled (m : Mantissa) (exponent : Int) (rest : Bytes) : Except Stop (Number × Bytes) :=
  match scaled? m exponent with
  | some x => .ok (.floating x, rest)
  | none => stopHere .numberOutOfRange rest

def clampExponent (e : Int) : Int := max (-2147483648) (min 2147483647 e)

def exponentDigits (m : Mantissa) (start : Int) (upward : Bool) : Nat → Bytes → Except Stop (Number × Bytes)
  | e, [] => scaled m (clampExponent (if upward then start + e else start - e)) []
  | e, b :: rest =>
    if isDigitByte b then
      let e := e * 10 + (b.toNat - 0x30)
      if e ≤ 2147483647 then exponentDigits m start upward e rest
      else if m.significand ≠ 0 ∧ upward then stopHere .numberOutOfRange rest
      else .ok (.floating (Binary64.zero !m.positive), rest.dropWhile isDigitByte)
    else scaled m (clampExponent (if upward then start + e else start - e)) (b :: rest)

def exponentPart (m : Mantissa) (start : Int) (input : Bytes) : Except Stop (Number × Bytes) :=
  let (upward, input) := match input with
    | 0x2B :: rest => (true, rest)
    | 0x2D :: rest => (false, rest)
    | _ => (true, input)
  match input with
  | [] => stopHere .endInValue []
  | b :: rest =>
    if isDigitByte b then exponentDigits m start upward (b.toNat - 0x30) rest
    else stopHere .invalidNumber rest

def isExponentMark (b : UInt8) : Bool := b == 0x65 || b == 0x45

/-- What may follow the last digit before an exponent. -/
def maybeExponent (m : Mantissa) (exponent : Int) (input : Bytes) : Except Stop (Number × Bytes) :=
  match input with
  | b :: rest => if isExponentMark b then exponentPart m exponent rest else scaled m exponent input
  | [] => scaled m exponent []

/-- The digits behind a point; those without room are passed over. -/
def fractionDigits (m : Mantissa) (exponent : Int) (any : Bool) : Bytes → Except Stop (Number × Bytes)
  | [] => if any then scaled m exponent [] else stopAtNext .endInValue []
  | b :: rest =>
    if isDigitByte b then
      if hasRoom m.significand b then fractionDigits (m.push b) (exponent - 1) true rest
      else maybeExponent m exponent (rest.dropWhile isDigitByte)
    else if any then maybeExponent m exponent (b :: rest)
    else stopAtNext .invalidNumber (b :: rest)

/-- Further digits of a whole number that has no room: each one is a factor of ten. -/
def longDigits (m : Mantissa) (exponent : Int) : Bytes → Except Stop (Number × Bytes)
  | [] => scaled m exponent []
  | b :: rest =>
    if isDigitByte b then longDigits m (exponent + 1) rest
    else if b == 0x2E then fractionDigits m exponent false rest
    else maybeExponent m exponent (b :: rest)

/-- A whole number that is not continued. A negative zero, and what has no room, is floating. -/
def Mantissa.whole (m : Mantissa) : Number :=
  if m.positive then .whole m.significand
  else if m.significand = 0 ∨ 1 <<< 63 < m.significand then
    .floating (Binary64.ofRatio true m.significand 1)
  else .whole (-m.significand)

def afterDigits (m : Mantissa) (input : Bytes) : Except Stop (Number × Bytes) :=
  match input with
  | b :: rest =>
    if b == 0x2E then fractionDigits m 0 false rest
    else if isExponentMark b then exponentPart m 0 rest
    else .ok (m.whole, input)
  | [] => .ok (m.whole, [])

def wholeDigits (m : Mantissa) : Bytes → Except Stop (Number × Bytes)
  | [] => .ok (m.whole, [])
  | b :: rest =>
    if isDigitByte b then
      if hasRoom m.significand b then wholeDigits (m.push b) rest
      else longDigits m 0 (b :: rest)
    else afterDigits m (b :: rest)

/-- A number behind its sign: a zero stands alone before the point. -/
def number (positive : Bool) (input : Bytes) : Except Stop (Number × Bytes) :=
  match input with
  | [] => stopHere .endInValue []
  | b :: rest =>
    if b == 0x30 then
      match rest with
      | d :: _ =>
        if isDigitByte d then stopAtNext .invalidNumber rest else afterDigits ⟨positive, 0⟩ rest
      | [] => afterDigits ⟨positive, 0⟩ []
    else if isDigitByte b then wholeDigits ⟨positive, b.toNat - 0x30⟩ rest
    else stopHere .invalidNumber rest

/-! ### Strings -/

def hexValue? (b : UInt8) : Option Nat :=
  if isDigitByte b then some (b.toNat - 0x30)
  else if 0x61 ≤ b && b ≤ 0x66 then some (b.toNat - 0x57)
  else if 0x41 ≤ b && b ≤ 0x46 then some (b.toNat - 0x37)
  else none

def hexUnit : Bytes → Except Stop (Nat × Bytes)
  | a :: b :: c :: d :: rest =>
    match hexValue? a, hexValue? b, hexValue? c, hexValue? d with
    | some a, some b, some c, some d => .ok (((a * 16 + b) * 16 + c) * 16 + d, rest)
    | _, _, _, _ => stopHere .invalidEscape rest
  | _ => stopHere .endInString []

def isLeadingSurrogate (n : Nat) : Bool := 0xD800 ≤ n && n ≤ 0xDBFF

def isTrailingSurrogate (n : Nat) : Bool := 0xDC00 ≤ n && n ≤ 0xDFFF

def trailingUnit (leading : Nat) : Bytes → Except Stop (Char × Bytes)
  | [] => stopHere .endInString []
  | b :: rest =>
    if b != 0x5C then stopHere .endOfEscape rest
    else
      match rest with
      | [] => stopHere .endInString []
      | u :: rest =>
        if u != 0x75 then stopHere .endOfEscape rest
        else do
          let (trailing, rest) ← hexUnit rest
          if isTrailingSurrogate trailing then
            .ok (Char.ofNat ((leading - 0xD800) * 0x400 + (trailing - 0xDC00) + 0x10000), rest)
          else stopHere .loneSurrogate rest

/-- A character given by its number, in one unit or in two. -/
def unicodeEscape (input : Bytes) : Except Stop (Char × Bytes) := do
  let (n, rest) ← hexUnit input
  if isTrailingSurrogate n then stopHere .loneSurrogate rest
  else if isLeadingSurrogate n then trailingUnit n rest
  else .ok (Char.ofNat n, rest)

def escaped : Bytes → Except Stop (Char × Bytes)
  | [] => stopHere .endInString []
  | b :: rest =>
    if b == 0x22 || b == 0x5C || b == 0x2F then .ok (Char.ofNat b.toNat, rest)
    else if b == 0x62 then .ok ('\x08', rest)
    else if b == 0x66 then .ok ('\x0c', rest)
    else if b == 0x6E then .ok ('\n', rest)
    else if b == 0x72 then .ok ('\r', rest)
    else if b == 0x74 then .ok ('\t', rest)
    else if b == 0x75 then unicodeEscape rest
    else stopHere .invalidEscape rest

/-- Blames a string that is no text: the blame lies as far before its closing quote as the first piece
that cannot be read lies before the end of what was read. -/
def blameText {α : Type} (start read fromQuote : Bytes) : Except Stop α :=
  let left := (Text.fromFirstFault none read).length + fromQuote.length
  stopAtNext .invalidCodePoint (start.drop (start.length - left))

/-- A string behind its opening quote, which stands before `start`. What was read so far stands in
reverse; `fuel` bounds the number of characters. -/
def stringBody (start : Bytes) : Nat → Bytes → Bytes → Except Stop (String × Bytes)
  | 0, _, _ => stopHere .endInString []
  | _ + 1, _, [] => stopHere .endInString []
  | fuel + 1, read, b :: rest =>
    if b == 0x22 then
      match Text.decode? read.reverse with
      | some s => .ok (s, rest)
      | none => blameText start read.reverse (b :: rest)
    else if b == 0x5C then
      match escaped rest with
      | .ok (c, rest) =>
        stringBody start fuel ((Text.encode (String.singleton c)).reverse ++ read) rest
      | .error stop => .error stop
    else if b < 0x20 then stopHere .controlCharacter rest
    else stringBody start fuel (b :: read) rest

def string (input : Bytes) : Except Stop (String × Bytes) :=
  stringBody input (input.length + 1) [] input

/-! ### Values -/

def arrayItems (value : Bytes → Except Stop (Value × Bytes)) :
    Nat → Bool → List Value → Bytes → Except Stop (Value × Bytes)
  | 0, _, _, _ => stopHere .endInList []
  | fuel + 1, first, read, input =>
    match skipBlanks input with
    | [] => stopAtNext .endInList []
    | b :: rest =>
      if b == 0x5D then .ok (.array read.reverse, rest)
      else if first then do
        let (v, rest) ← value (b :: rest)
        arrayItems value fuel false (v :: read) rest
      else if b == 0x2C then
        match skipBlanks rest with
        | [] => stopAtNext .endInValue []
        | c :: rest =>
          if c == 0x5D then stopAtNext .trailingComma (c :: rest)
          else do
            let (v, rest) ← value (c :: rest)
            arrayItems value fuel false (v :: read) rest
      else stopAtNext .expectedCommaOrBracket (b :: rest)

def member (value : Bytes → Except Stop (Value × Bytes)) (input : Bytes) : Except Stop ((String × Value) × Bytes) := do
  let (key, rest) ← string input
  match skipBlanks rest with
  | [] => stopAtNext .endInObject []
  | b :: rest =>
    if b == 0x3A then do
      let (v, rest) ← value rest
      .ok ((key, v), rest)
    else stopAtNext .expectedColon (b :: rest)

/-- The members of an object behind its brace, up to the closing one. A later member takes the
place of an earlier one with the same key. -/
def objectMembers (value : Bytes → Except Stop (Value × Bytes)) :
    Nat → Bool → List (String × Value) → Bytes → Except Stop (Value × Bytes)
  | 0, _, _, _ => stopHere .endInObject []
  | fuel + 1, first, read, input =>
    match skipBlanks input with
    | [] => stopAtNext .endInObject []
    | b :: rest =>
      if b == 0x7D then .ok (.object read, rest)
      else if first then
        if b == 0x22 then do
          let ((k, v), rest) ← member value rest
          objectMembers value fuel false (Members.insert k v read) rest
        else stopAtNext .keyNotString (b :: rest)
      else if b == 0x2C then
        match skipBlanks rest with
        | [] => stopAtNext .endInValue []
        | c :: rest =>
          if c == 0x22 then do
            let ((k, v), rest) ← member value rest
            objectMembers value fuel false (Members.insert k v read) rest
          else if c == 0x7D then stopAtNext .trailingComma (c :: rest)
          else stopAtNext .keyNotString (c :: rest)
      else stopAtNext .expectedCommaOrBrace (b :: rest)

def scalar (b : UInt8) (rest : Bytes) : Except Stop (Value × Bytes) :=
  if b == 0x6E then word .null (ascii "ull") rest
  else if b == 0x74 then word (.bool true) (ascii "rue") rest
  else if b == 0x66 then word (.bool false) (ascii "alse") rest
  else if b == 0x2D then (number false rest).map fun (n, rest) => (.number n, rest)
  else if isDigitByte b then (number true (b :: rest)).map fun (n, rest) => (.number n, rest)
  else if b == 0x22 then (string rest).map fun (s, rest) => (.string s, rest)
  else stopAtNext .expectedValue (b :: rest)

/-- A value in which arrays and objects nest at most `depth` deep. -/
def value (depth : Nat) (input : Bytes) : Except Stop (Value × Bytes) :=
  match skipBlanks input with
  | [] => stopAtNext .endInValue []
  | b :: rest =>
    if b == 0x5B then
      match depth with
      | 0 => stopAtNext .tooDeep (b :: rest)
      | depth + 1 => arrayItems (value depth) (rest.length + 1) true [] rest
    else if b == 0x7B then
      match depth with
      | 0 => stopAtNext .tooDeep (b :: rest)
      | depth + 1 => objectMembers (value depth) (rest.length + 1) true [] rest
    else scalar b rest

def maxDepth : Nat := 127

structure ReadError where
  fault : Fault
  line : Nat
  column : Nat
deriving DecidableEq, Repr

def ReadError.message (e : ReadError) : String :=
  e.fault.message ++ " at line " ++ Text.Numeral.text e.line ++ " column " ++
    Text.Numeral.text e.column

/-- The line and column of a stop: lines count from one, columns in bytes from the line's start. -/
def Stop.locate (stop : Stop) (input : Bytes) : ReadError :=
  let left := stop.rest.length - (if stop.atNext then 1 else 0)
  let taken := input.take (input.length - left)
  ⟨stop.fault, taken.count 0x0A + 1, (taken.reverse.takeWhile (· != 0x0A)).length⟩

def Value.read (input : Bytes) : Except ReadError Value :=
  match value maxDepth input with
  | .error stop => .error (stop.locate input)
  | .ok (v, rest) =>
    match skipBlanks rest with
    | [] => .ok v
    | rest => .error (Stop.locate ⟨.trailingCharacters, rest, true⟩ input)

end LogIntake.Json
