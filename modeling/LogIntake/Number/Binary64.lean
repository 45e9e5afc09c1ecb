/-!
Binary floating-point numbers of 64 bits, given by their bits. Every rounding goes through
`ofRatio`, which rounds a quotient of naturals to the nearest number, a tie to the even one.
-/
namespace LogIntake

/-- A double-precision number: a sign bit, eleven bits of exponent, fifty-two of fraction. -/
structure Binary64 where
  bits : UInt64
deriving DecidableEq, Inhabited

namespace Binary64

def ofMagnitude (negative : Bool) (magnitude : Nat) : Binary64 :=
  ⟨UInt64.ofNat (magnitude + if negative then 1 <<< 63 else 0)⟩

def infiniteMagnitude : Nat := 0x7FF <<< 52

def zero (negative : Bool) : Binary64 := ofMagnitude negative 0

def infinity (negative : Bool) : Binary64 := ofMagnitude negative infiniteMagnitude

def nan (negative : Bool) : Binary64 := ofMagnitude negative (infiniteMagnitude + (1 <<< 51))

def negative (x : Binary64) : Bool := decide (1 <<< 63 ≤ x.bits.toNat)

def magnitude (x : Binary64) : Nat := x.bits.toNat % (1 <<< 63)

def isNaN (x : Binary64) : Bool := decide (infiniteMagnitude < x.magnitude)

def isInfinite (x : Binary64) : Bool := x.magnitude == infiniteMagnitude

def isZero (x : Binary64) : Bool := x.magnitude == 0

def neg (x : Binary64) : Binary64 := ofMagnitude (!x.negative) x.magnitude

/-- A finite number is `significand * 2 ^ exponent` up to its sign. -/
def significand (x : Binary64) : Nat :=
  if x.magnitude < 1 <<< 52 then x.magnitude else x.magnitude % (1 <<< 52) + (1 <<< 52)

def exponent (x : Binary64) : Int := max 1 (x.magnitude >>> 52 : Nat) - 1075

/-- The natural number nearest to `num / den`, of two the even one. -/
def roundedQuotient (num den : Nat) : Nat :=
  let q := num / den
  let r := num % den
  if den < 2 * r ∨ (2 * r = den ∧ q % 2 = 1) then q + 1 else q

def inUnits (num den : Nat) (e : Int) : Nat × Nat :=
  if 0 ≤ e then (num, den <<< e.toNat) else (num <<< (-e).toNat, den)

/-- The exponent of the last place of a number of the size of `num / den`. -/
def lastPlace (num den : Nat) : Int :=
  let guess : Int := num.log2 - den.log2 - 53
  let (n, d) := inUnits num den guess
  max (-1074) (if n / d < 1 <<< 53 then guess else guess + 1)

def ofRatio (negative : Bool) (num den : Nat) : Binary64 :=
  if num = 0 ∨ den = 0 then zero negative
  else
    let e := lastPlace num den
    let (n, d) := inUnits num den e
    ofMagnitude negative
      (min infiniteMagnitude (((e + 1074).toNat <<< 52) + roundedQuotient n d))

/-- The number nearest to `m * 10 ^ e`. An exponent far beyond the range is not raised to. -/
def ofDecimal (negative : Bool) (m : Nat) (e : Int) : Binary64 :=
  if m = 0 then zero negative
  else if 0 ≤ e then
    if 400 < e then infinity negative else ofRatio negative (m * Nat.pow 10 e.toNat) 1
  else if (m.log2 : Int) + 400 < -e then zero negative
  else ofRatio negative m (Nat.pow 10 (-e).toNat)

def mul (x y : Binary64) : Binary64 :=
  let e := x.exponent + y.exponent
  let m := x.significand * y.significand
  if 0 ≤ e then ofRatio (x.negative ^^ y.negative) (m <<< e.toNat) 1
  else ofRatio (x.negative ^^ y.negative) m (1 <<< (-e).toNat)

def div (x y : Binary64) : Binary64 :=
  let e := x.exponent - y.exponent
  if 0 ≤ e then ofRatio (x.negative ^^ y.negative) (x.significand <<< e.toNat) y.significand
  else ofRatio (x.negative ^^ y.negative) x.significand (y.significand <<< (-e).toNat)

end Binary64

end LogIntake
