import LogIntake.Text.Blank
import LogIntake.Text.Numeral

/-!
Lengths of time, exact to the nanosecond, and the two ways in which people write them: as a row of
parts such as `1h 30m`, which can be read back, and as one decimal such as `1.5s`, which stands in
messages.
-/
namespace LogIntake

/-- A length of time in nanoseconds, less than `2 ^ 64` seconds. -/
structure Span where
  nanoseconds : Nat
  inRange : nanoseconds < (1 <<< 64) * 1000000000 := by decide
deriving DecidableEq, Repr

namespace Span

def zero : Span := { nanoseconds := 0 }

instance : Inhabited Span := ⟨zero⟩

def longest : Nat := (1 <<< 64) * 1000000000 - 1

def capped (n : Nat) : Span := ⟨min n longest, by unfold longest; omega⟩

def ofMilliseconds (n : Nat) : Span := capped (n * 1000000)

def ofSeconds (n : Nat) : Span := capped (n * 1000000000)

def seconds (s : Span) : Nat := s.nanoseconds / 1000000000

def subsecond (s : Span) : Nat := s.nanoseconds % 1000000000

/-- Twice as long, or the longest span. -/
def double (s : Span) : Span := capped (2 * s.nanoseconds)

/-- The milliseconds after which the span is surely over. -/
def ceilMilliseconds (s : Span) : Nat := (s.nanoseconds + 999999) / 1000000

theorem ceilMilliseconds_mul {s : Span} (whole : 1000000 ∣ s.nanoseconds) :
    s.ceilMilliseconds * 1000000 = s.nanoseconds := by
  rw [ceilMilliseconds]
  omega

/-- Whether a clock that shows some milliseconds can still show the end of a span that begins now. Its
seconds have 63 bits, half of what a span can have. -/
def endsOnClock (now : Nat) (s : Span) : Bool := 1000000 * now + s.nanoseconds < (1 <<< 63) * 1000000000

/-! ### Units -/

inductive Scale where
  | nanosecond
  | microsecond
  | millisecond
  | second
  | minute
  | hour
  | day
  | week
  | month
  | year
deriving DecidableEq, Inhabited, Repr

namespace Scale

/-- The length of a unit. A year has 365.25 days and a month 30.44. -/
def nanoseconds : Scale → Nat
  | nanosecond => 1
  | microsecond => 1000
  | millisecond => 1000000
  | second => 1000000000
  | minute => 60 * 1000000000
  | hour => 3600 * 1000000000
  | day => 86400 * 1000000000
  | week => 604800 * 1000000000
  | month => 2630016 * 1000000000
  | year => 31557600 * 1000000000

/-- Parts in this unit are counted in seconds, those of shorter units in nanoseconds. -/
def countsSeconds : Scale → Bool
  | nanosecond => false
  | microsecond => false
  | millisecond => false
  | _ => true

def splitsIntoSeconds : Scale → Bool
  | second => false
  | minute => false
  | u => u.countsSeconds

def words : List (String × Scale) :=
  [("nanos", nanosecond), ("nsec", nanosecond), ("ns", nanosecond),
   ("usec", microsecond), ("us", microsecond), ("µs", microsecond),
   ("millis", millisecond), ("msec", millisecond), ("ms", millisecond),
   ("seconds", second), ("second", second), ("secs", second), ("sec", second), ("s", second),
   ("minutes", minute), ("minute", minute), ("min", minute), ("mins", minute), ("m", minute),
   ("hours", hour), ("hour", hour), ("hr", hour), ("hrs", hour), ("h", hour),
   ("days", day), ("day", day), ("d", day),
   ("weeks", week), ("week", week), ("wk", week), ("wks", week), ("w", week),
   ("months", month), ("month", month), ("M", month),
   ("years", year), ("year", year), ("yr", year), ("yrs", year), ("y", year)]

def label (count : Nat) : Scale → String
  | nanosecond => "ns"
  | microsecond => "us"
  | millisecond => "ms"
  | second => "s"
  | minute => "m"
  | hour => "h"
  | day => if count = 1 then "day" else "days"
  | week => if count = 1 then "week" else "weeks"
  | month => if count = 1 then "month" else "months"
  | year => if count = 1 then "year" else "years"

end Scale

/-! ### Writing -/

def written : List Scale :=
  [.year, .month, .day, .hour, .minute, .second, .millisecond, .microsecond, .nanosecond]

/-- How often each unit fits, one after another. -/
def breakdown : List Scale → Nat → List (Nat × Scale)
  | [], _ => []
  | u :: us, n => (n / u.nanoseconds, u) :: breakdown us (n % u.nanoseconds)

/-- A row of parts; those of which there are none are left out. -/
def text (s : Span) : String :=
  let parts := (breakdown written s.nanoseconds).filter fun (count, _) => count != 0
  if parts.isEmpty then "0s"
  else " ".intercalate (parts.map fun (count, u) => Text.Numeral.text count ++ u.label count)

/-- A decimal in a unit, without the last zeros of its fraction. -/
def decimalText (n unit : Nat) (places : Nat) (word : String) : String :=
  let ds := Text.Numeral.digits (n % unit)
  let fraction :=
    ((List.replicate (places - ds.length) '0' ++ ds).reverse.dropWhile (· == '0')).reverse
  Text.Numeral.text (n / unit) ++
    (if n % unit = 0 then "" else String.ofList ('.' :: fraction)) ++ word

/-- One decimal, in the longest unit up to seconds that fits. -/
def decimal (s : Span) : String :=
  if 1000000000 ≤ s.nanoseconds then decimalText s.nanoseconds 1000000000 9 "s"
  else if 1000000 ≤ s.nanoseconds then decimalText s.nanoseconds 1000000 6 "ms"
  else if 1000 ≤ s.nanoseconds then decimalText s.nanoseconds 1000 3 "µs"
  else decimalText s.nanoseconds 1 0 "ns"

/-! ### Reading -/

/-- A number with a unit; the digits of its fraction, if it has one. -/
structure Part where
  whole : Nat
  fraction : List Char
  unit : Scale

def isUnitChar (c : Char) : Bool := c.isAlpha || c = 'µ'

/-- Digits, among which blanks do not count, and what follows them. -/
def digitsAmongBlanks (cs : List Char) : List Char × List Char :=
  ((cs.takeWhile fun c => c.isDigit || Text.isBlank c).filter Char.isDigit,
    cs.dropWhile fun c => c.isDigit || Text.isBlank c)

/-- The fraction behind a number: none, or a point and at least one digit. -/
def fraction? : List Char → Option (List Char × List Char)
  | '.' :: rest =>
    let (ds, rest) := digitsAmongBlanks rest
    if ds.isEmpty then none else some (ds, rest)
  | cs => some ([], cs)

/-- The first part of a row. A blank or the next number ends a unit. -/
def part? (cs : List Char) : Option (Part × List Char) := do
  let (ds, rest) := digitsAmongBlanks cs
  if !(cs.head?.map Char.isDigit).getD false then none
  else
    let (fraction, rest) ← fraction? rest
    let unit ← Scale.words.lookup (String.ofList (rest.takeWhile isUnitChar))
    some (⟨Text.Numeral.value ds, fraction, unit⟩, rest.dropWhile isUnitChar)

theorem length_dropWhile_le {p : Char → Bool} (cs : List Char) :
    (cs.dropWhile p).length ≤ cs.length := (List.dropWhile_sublist p).length_le

theorem length_fraction?_le {cs ds rest : List Char} (h : fraction? cs = some (ds, rest)) :
    rest.length ≤ cs.length := by
  unfold fraction? at h
  split at h
  · next r =>
    have hr := length_dropWhile_le (p := fun c => c.isDigit || Text.isBlank c) r
    by_cases hd : (digitsAmongBlanks r).1.isEmpty
    · simp [hd] at h
    · obtain ⟨-, rfl⟩ := by simpa [hd] using h
      exact Nat.le_trans hr (Nat.le_succ _)
  · obtain ⟨-, rfl⟩ := by simpa using h
    omega

theorem length_part?_lt {cs rest : List Char} {p : Part} (h : part? cs = some (p, rest)) :
    rest.length < cs.length := by
  rw [part?] at h
  cases cs with
  | nil => simp at h
  | cons c cs =>
    simp only [List.head?_cons, Option.map_some, Option.getD_some, Bool.not_eq_true'] at h
    split at h
    · simp at h
    · next hc =>
      simp only [Bool.not_eq_false] at hc
      obtain ⟨⟨fraction, r⟩, hf, h⟩ := Option.bind_eq_some_iff.1 h
      obtain ⟨u, -, h⟩ := Option.bind_eq_some_iff.1 h
      obtain ⟨-, rfl⟩ := by simpa using h
      have h1 := length_fraction?_le hf
      have h2 := length_dropWhile_le (p := isUnitChar) r
      have h3 := length_dropWhile_le (p := fun c => c.isDigit || Text.isBlank c) cs
      simp only [digitsAmongBlanks, List.dropWhile_cons, hc, Bool.true_or, ite_true] at h1
      simp
      omega

def parts? (cs : List Char) : Option (List Part) :=
  match _h : part? (cs.dropWhile Text.isBlank) with
  | none => none
  | some (p, rest) =>
    match rest.dropWhile Text.isBlank with
    | [] => some [p]
    | _ :: _ => (parts? rest).map (p :: ·)
termination_by cs.length
decreasing_by
  have := length_part?_lt _h
  have := length_dropWhile_le (p := Text.isBlank) cs
  omega

def room? (n : Nat) : Option Nat := if n < 1 <<< 64 then some n else none

def Part.wholeNanoseconds? (p : Part) : Option Nat :=
  if p.unit.countsSeconds then
    (room? (p.whole * (p.unit.nanoseconds / 1000000000))).map (· * 1000000000)
  else room? (p.whole * p.unit.nanoseconds)

/-- The exact value of a fraction. There is none below a nanosecond, nor below a second when the
unit is longer than minutes. -/
def Part.fractionNanoseconds? (p : Part) : Option Nat :=
  if p.fraction.isEmpty then some 0
  else if p.unit = .nanosecond ∨ 19 < p.fraction.length then none
  else
    let grain := if p.unit.splitsIntoSeconds then 1000000000 else 1
    let n := Text.Numeral.value p.fraction * (p.unit.nanoseconds / grain)
    let d := Nat.pow 10 p.fraction.length
    if n < 1 <<< 64 ∧ n % d = 0 then some (n / d * grain) else none

def add? (s : Span) (n : Nat) : Option Span :=
  if h : s.nanoseconds + n < (1 <<< 64) * 1000000000 then some ⟨s.nanoseconds + n, h⟩ else none

/-- Adds nanoseconds that need room in 64 bits beside those of the last second. -/
def addFine? (s : Span) (n : Nat) : Option Span := do
  let _ ← room? (s.subsecond + n)
  s.add? n

def addPart? (s : Span) (p : Part) : Option Span := do
  if p.whole < 1 <<< 64 then
    let whole ← p.wholeNanoseconds?
    let s ← if p.unit.countsSeconds then s.add? whole else s.addFine? whole
    let fraction ← p.fractionNanoseconds?
    if p.unit.splitsIntoSeconds then s.add? fraction else s.addFine? fraction
  else none

def addParts? : Span → List Part → Option Span
  | s, [] => some s
  | s, p :: ps => (s.addPart? p).bind fun s => addParts? s ps

/-- Reads a row of parts. A lone zero needs no unit. -/
def read? (cs : List Char) : Option Span :=
  if cs = ['0'] then some zero else (parts? cs).bind (addParts? zero)

end Span

end LogIntake
