import LogIntake.Toml.Basic

/-!
Leaves as a TOML text writes them. A number may be written that no scalar holds; it is refused only
where its value is asked for.
-/
namespace LogIntake.Toml

inductive Literal where
  | scalar (s : Scalar)
  /-- A whole number without room in 64 signed bits. -/
  | wide (n : Int)
  /-- A number beyond the largest floating-point number. -/
  | huge
deriving DecidableEq, Inhabited

def Literal.whole (n : Int) : Literal :=
  if -(1 <<< 63 : Nat) ≤ n ∧ n < (1 <<< 63 : Nat) then .scalar (.integer n) else .wide n

def Literal.decimal (negative : Bool) (digits : Nat) (exponent : Int) : Literal :=
  let x := Binary64.ofDecimal negative digits exponent
  if x.isInfinite then .huge else .scalar (.float x)

/-! ### The characters of a literal -/

/-- Digits with single underscores between them, at least one; the rest begins with neither. -/
def digitRun? (isDigit : Char → Bool) (cs : List Char) : Option (List Char × List Char) :=
  let run := cs.takeWhile fun c => isDigit c || c = '_'
  let rest := cs.dropWhile fun c => isDigit c || c = '_'
  let rec spaced : Bool → List Char → Bool
    | afterDigit, [] => afterDigit
    | afterDigit, c :: cs => if c = '_' then afterDigit && spaced false cs else spaced true cs
  if spaced false run then some (run.filter (· ≠ '_'), rest) else none

def isHexDigit (c : Char) : Bool :=
  c.isDigit || ('a' ≤ c && c ≤ 'f') || ('A' ≤ c && c ≤ 'F')

def hexDigitValue (c : Char) : Nat :=
  if c.isDigit then c.toNat - 48 else if 'a' ≤ c then c.toNat - 87 else c.toNat - 55

def inBase? (base : Nat) (isDigit : Char → Bool) (cs : List Char) : Option Literal :=
  match digitRun? isDigit cs with
  | some (ds, []) => some (.whole (ds.foldl (fun n c => base * n + hexDigitValue c) 0 : Nat))
  | _ => none

def exponent? (cs : List Char) : Option Int :=
  let (negative, cs) := match cs with
    | '-' :: rest => (true, rest)
    | '+' :: rest => (false, rest)
    | _ => (false, cs)
  match digitRun? Char.isDigit cs with
  | some (ds, []) =>
    let e : Int := Text.Numeral.value ds
    some (if negative then -e else e)
  | _ => none

def unsignedNumber? (negative : Bool) (cs : List Char) : Option Literal := do
  let (whole, rest) ← digitRun? Char.isDigit cs
  if 1 < whole.length && whole.head? == some '0' then none
  else
    match rest with
    | [] =>
      let n : Int := Text.Numeral.value whole
      some (.whole (if negative then -n else n))
    | '.' :: rest => do
      let (fraction, rest) ← digitRun? Char.isDigit rest
      let m := Text.Numeral.value (whole ++ fraction)
      match rest with
      | [] => some (.decimal negative m (-fraction.length))
      | c :: rest =>
        if c = 'e' ∨ c = 'E' then do
          let e ← exponent? rest
          some (.decimal negative m (e - fraction.length))
        else none
    | c :: rest =>
      if c = 'e' ∨ c = 'E' then do
        let e ← exponent? rest
        some (.decimal negative (Text.Numeral.value whole) e)
      else none

/-- A word that stands without quotes. -/
def literal? (cs : List Char) : Option Literal :=
  if cs = "true".toList then some (.scalar (.boolean true))
  else if cs = "false".toList then some (.scalar (.boolean false))
  else
    match cs with
    | '0' :: 'x' :: rest => inBase? 16 isHexDigit rest
    | '0' :: 'o' :: rest => inBase? 8 (fun c => '0' ≤ c && c ≤ '7') rest
    | '0' :: 'b' :: rest => inBase? 2 (fun c => c = '0' || c = '1') rest
    | _ =>
      let (signed, negative, body) := match cs with
        | '-' :: rest => (true, true, rest)
        | '+' :: rest => (true, false, rest)
        | _ => (false, false, cs)
      if body = "inf".toList then some (.scalar (.float (.infinity negative)))
      else if body = "nan".toList then some (.scalar (.float (.nan negative)))
      else
        match unsignedNumber? negative body with
        | some l => some l
        | none => if signed then none else (Datetime.read? cs).map fun d => .scalar (.datetime d)

end LogIntake.Toml
