import LogIntake.Number.Binary64
import LogIntake.Text.Numeral

/-!
Floating-point numbers in decimal. The digits are the fewest that read back as the number, and of
those the nearest; which of two equally near ones it is, where the point stands and when an exponent is
written is for each format to say.
-/
namespace LogIntake.Binary64

/-- A positive decimal `0.d₁d₂… * 10 ^ point`. -/
structure Digits where
  digits : List Char
  point : Int

/-- Which of two neighbours is written for a number in the middle between them. -/
inductive Tie where
  | toEven
  /-- The one that is farther from zero. -/
  | away
deriving DecidableEq

def Tie.up (tie : Tie) (d : Nat) : Bool :=
  match tie with
  | toEven => d % 2 == 1
  | away => true

/-- The least `p` with `significand * 2 ^ exponent < 10 ^ p`. -/
def decimalPoint (m : Nat) (q : Int) : Int :=
  let estimate := ((m.log2 : Int) + q) * 30103 / 100000
  let reaches (p : Int) : Bool :=
    let (num, den) := inUnits m 1 (-q)
    if 0 ≤ p then decide (Nat.pow 10 p.toNat * den ≤ num)
    else decide (den ≤ num * Nat.pow 10 (-p).toNat)
  if reaches (estimate + 1) then estimate + 2
  else if reaches estimate then estimate + 1
  else estimate

/-- The best number of the decimal grid `10 ^ k` that reads back as `m * 2 ^ q`, if there is one.
`below` is the distance to the lower end of the interval that rounds to it, in quarter units. -/
def onGrid? (tie : Tie) (m : Nat) (q : Int) (below : Nat) (k : Int) : Option Nat :=
  let (b, a) := inUnits 1 1 (2 - q)
  let a := if 0 ≤ k then a * Nat.pow 10 k.toNat else a
  let b := if 0 ≤ k then b else b * Nat.pow 10 (-k).toNat
  let value := 4 * m * b
  let d := value / a
  let least := (4 * m - below) * b
  let greatest := (4 * m + 2) * b
  let inside (d : Nat) : Bool :=
    if m % 2 = 0 then decide (least ≤ d * a ∧ d * a ≤ greatest)
    else decide (least < d * a ∧ d * a < greatest)
  if inside d && d != 0 then
    if inside (d + 1) &&
        (2 * value > (2 * d + 1) * a || (2 * value == (2 * d + 1) * a && tie.up d)) then
      some (d + 1)
    else some d
  else if inside (d + 1) then some (d + 1)
  else none

/-- The first grid with a hit, from the coarsest on. -/
def firstGrid (tie : Tie) (m : Nat) (q : Int) (below : Nat) (point : Int) : Nat → Nat → Nat × Int
  | n, 0 => (m, point - n)
  | n, fuel + 1 =>
    match onGrid? tie m q below (point - n) with
    | some d => (d, point - n)
    | none => firstGrid tie m q below point (n + 1) fuel

def shortest (tie : Tie) (x : Binary64) : Digits :=
  let m := x.significand
  let q := x.exponent
  let below := if m = 1 <<< 52 ∧ -1074 < q then 1 else 2
  let (d, k) := firstGrid tie m q below (decimalPoint m q) 1 17
  let row := Text.Numeral.digits d
  ⟨(row.reverse.dropWhile (· == '0')).reverse, k + row.length⟩

structure Layout where
  tie : Tie
  /-- The places of the point, first and last, for which no exponent is written; all without it. -/
  plain : Option (Int × Int) := none
  /-- Whether a positive exponent has its sign. -/
  signedExponent : Bool := false
  /-- The word for what is not a number, and whether it has a sign. -/
  nan : String := "nan"
  signedNan : Bool := true

/-- All digits before and after the point, at least one of each. -/
def Digits.positional (d : Digits) : List Char :=
  let n := d.digits.length
  if d.point ≤ 0 then '0' :: '.' :: (List.replicate (-d.point).toNat '0' ++ d.digits)
  else if n ≤ d.point.toNat then
    d.digits ++ List.replicate (d.point.toNat - n) '0' ++ ['.', '0']
  else d.digits.take d.point.toNat ++ '.' :: d.digits.drop d.point.toNat

def Digits.scientific (d : Digits) (signed : Bool) : List Char :=
  let e := d.point - 1
  let front := match d.digits with
    | c :: (r :: rest) => c :: '.' :: r :: rest
    | one => one
  let sign := if e < 0 then ['-'] else if signed then ['+'] else []
  front ++ 'e' :: (sign ++ Text.Numeral.digits e.natAbs)

def render (layout : Layout) (x : Binary64) : String :=
  let sign := if x.negative then ['-'] else []
  if x.isNaN then String.ofList (if layout.signedNan then sign else []) ++ layout.nan
  else if x.isInfinite then String.ofList sign ++ "inf"
  else if x.isZero then String.ofList (sign ++ ['0', '.', '0'])
  else
    let d := x.shortest layout.tie
    let isPlain := match layout.plain with
      | none => true
      | some (first, last) => first ≤ d.point && d.point ≤ last
    String.ofList (sign ++ if isPlain then d.positional else d.scientific layout.signedExponent)

end LogIntake.Binary64
