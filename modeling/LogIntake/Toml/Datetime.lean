import LogIntake.Text.Numeral

/-!
Dates and times as TOML writes them: a date, a time of day, or both, and then perhaps an offset.
-/
namespace LogIntake.Toml

structure Date where
  year : Nat
  month : Nat
  day : Nat
deriving DecidableEq, Inhabited, Repr

structure Clock where
  hour : Nat
  minute : Nat
  second : Nat
  nanosecond : Nat
deriving DecidableEq, Inhabited, Repr

inductive Offset where
  | zulu
  | minutes (m : Int)
deriving DecidableEq, Inhabited, Repr

/-- A date, a time of day, or both. Only a date with a time has an offset. -/
inductive Datetime where
  | date (d : Date)
  | time (t : Clock)
  | both (d : Date) (t : Clock) (offset : Option Offset)
deriving DecidableEq, Inhabited, Repr

/-! ### Writing -/

def padded (width n : Nat) : List Char :=
  let ds := Text.Numeral.digits n
  List.replicate (width - ds.length) '0' ++ ds

def Date.text (d : Date) : List Char :=
  padded 4 d.year ++ '-' :: padded 2 d.month ++ '-' :: padded 2 d.day

/-- The fraction of a second is written without its last zeros. -/
def Clock.text (t : Clock) : List Char :=
  padded 2 t.hour ++ ':' :: padded 2 t.minute ++ ':' :: padded 2 t.second ++
    if t.nanosecond = 0 then []
    else '.' :: ((padded 9 t.nanosecond).reverse.dropWhile (· == '0')).reverse

def Offset.text : Offset → List Char
  | zulu => ['Z']
  | minutes m =>
    (if m < 0 then '-' else '+') :: padded 2 (m.natAbs / 60) ++ ':' :: padded 2 (m.natAbs % 60)

def Datetime.text : Datetime → List Char
  | date d => d.text
  | time t => t.text
  | both d t offset => d.text ++ 'T' :: t.text ++ (offset.map Offset.text).getD []

/-! ### Reading -/

inductive DatetimePart where
  | whole
  | date
  | between
  | time
  | offset
deriving DecidableEq, Repr

def DatetimePart.name : DatetimePart → String
  | whole => "datetime"
  | date => "date"
  | between => "date-time"
  | time => "time"
  | offset => "offset"

/-- The part that cannot be read, and what would have been right there. -/
structure DatetimeFault where
  part : DatetimePart
  expected : Option String
deriving DecidableEq, Repr

def DatetimeFault.message (f : DatetimeFault) : String :=
  "invalid " ++ f.part.name ++
    match f.expected with
    | some expected => ", expected " ++ expected
    | none => ""

abbrev DatetimeRead (α : Type) := Except DatetimeFault α

def checkPart (part : DatetimePart) (expected : String) (holds : Bool) : DatetimeRead Unit :=
  if holds then .ok () else .error ⟨part, some expected⟩

/-- The digits up to the first other character, at least one, and what follows them. -/
def digitsAt (part : DatetimePart) (expected : String) (cs : List Char) :
    DatetimeRead (List Char × List Char) :=
  let ds := cs.takeWhile Char.isDigit
  if ds.isEmpty then .error ⟨part, some expected⟩ else .ok (ds, cs.dropWhile Char.isDigit)

def behind (c : Char) (part : DatetimePart) (expected : String) : List Char →
    DatetimeRead (List Char)
  | [] => .error ⟨part, some expected⟩
  | d :: rest => if d = c then .ok rest else .error ⟨part, some expected⟩

def daysInMonth (year month : Nat) : Nat :=
  if month = 2 then
    if year % 4 = 0 ∧ (year % 100 ≠ 0 ∨ year % 400 = 0) then 29 else 28
  else if month = 4 ∨ month = 6 ∨ month = 9 ∨ month = 11 then 30
  else 31

/-- A date, and what follows it. All three numbers are looked for before their widths are checked,
and the widths before the values. -/
def Date.read (cs : List Char) : DatetimeRead (Date × List Char) := do
  let (year, cs) ← digitsAt .whole "year or hour" cs
  let cs ← behind '-' .whole "`-` (YYYY-MM) or `:` (HH:MM)" cs
  let (month, cs) ← digitsAt .date "month" cs
  let cs ← behind '-' .date "`-` (MM-DD)" cs
  let (day, cs) ← digitsAt .date "day" cs
  checkPart .date "a four-digit year (YYYY)" (year.length == 4)
  checkPart .date "a two-digit month (MM)" (month.length == 2)
  checkPart .date "a two-digit day (DD)" (day.length == 2)
  let d : Date := ⟨Text.Numeral.value year, Text.Numeral.value month, Text.Numeral.value day⟩
  checkPart .date "month between 01 and 12" (1 ≤ d.month && d.month ≤ 12)
  let last := daysInMonth d.year d.month
  checkPart .date ("day between 01 and " ++ Text.Numeral.text last) (1 ≤ d.day && d.day ≤ last)
  .ok (d, cs)

def Date.isWritten (cs : List Char) : Bool :=
  match Date.read cs with
  | .ok (_, []) => true
  | _ => false

/-- The nanoseconds of a fraction; digits behind the ninth are passed over. -/
def nanosecondsOf (ds : List Char) : Nat :=
  Text.Numeral.value (ds.take 9 ++ List.replicate (9 - ds.length) '0')

/-- The digits of the seconds and of their fraction, where they are written. Seconds may be left out,
and only written seconds have a fraction. -/
def Clock.readSeconds : List Char → DatetimeRead (Option (List Char) × List Char × List Char)
  | ':' :: rest => do
    let (second, rest) ← digitsAt .time "second" rest
    match rest with
    | '.' :: rest => do
      let (fraction, rest) ← digitsAt .time "nanosecond" rest
      .ok (some second, fraction, rest)
    | _ => .ok (some second, [], rest)
  | cs => .ok (none, [], cs)

def Clock.read (cs : List Char) : DatetimeRead (Clock × List Char) := do
  let (hour, cs) ← digitsAt .time "hour" cs
  let cs ← behind ':' .time "`:` (HH:MM)" cs
  let (minute, cs) ← digitsAt .time "minute" cs
  let (second, fraction, cs) ← Clock.readSeconds cs
  checkPart .time "a two-digit hour (HH)" (hour.length == 2)
  checkPart .time "a two-digit minute (MM)" (minute.length == 2)
  checkPart .time "a two-digit second (SS)" (second.all (·.length == 2))
  let t : Clock := ⟨Text.Numeral.value hour, Text.Numeral.value minute,
    (second.map Text.Numeral.value).getD 0, nanosecondsOf fraction⟩
  checkPart .time "hour between 00 and 23" (t.hour ≤ 23)
  checkPart .time "minute between 00 and 59" (t.minute ≤ 59)
  checkPart .time "second between 00 and 60" (t.second ≤ 60)
  .ok (t, cs)

def Offset.read : List Char → DatetimeRead (Option Offset)
  | [] => .ok none
  | c :: rest =>
    if c = 'Z' ∨ c = 'z' then
      if rest.isEmpty then .ok (some .zulu) else .error ⟨.whole, none⟩
    else if c = '+' ∨ c = '-' then do
      let (hour, rest) ← digitsAt .offset "hour" rest
      let rest ← behind ':' .offset "`:` (HH:MM)" rest
      let (minute, rest) ← digitsAt .offset "minute" rest
      checkPart .offset "a two-digit hour (HH)" (hour.length == 2)
      checkPart .offset "a two-digit minute (MM)" (minute.length == 2)
      let h := Text.Numeral.value hour
      let m := Text.Numeral.value minute
      checkPart .offset "hours between 00 and 23" (h ≤ 23)
      checkPart .offset "minutes between 00 and 59" (m ≤ 59)
      let total : Int := h * 60 + m
      if rest.isEmpty then .ok (some (.minutes (if c = '-' then -total else total)))
      else .error ⟨.whole, none⟩
    else .error ⟨.offset, some "`Z`, +OFFSET, -OFFSET"⟩

/-- Reads a whole text as a date, a time of day or both. What its first digits are is told by the
character behind them. -/
def Datetime.read (cs : List Char) : DatetimeRead Datetime := do
  let (_, rest) ← digitsAt .whole "year or hour" cs
  match rest with
  | ':' :: _ => do
    let (t, rest) ← Clock.read cs
    if rest.isEmpty then .ok (.time t) else .error ⟨.whole, none⟩
  | _ => do
    let (d, rest) ← Date.read cs
    match rest with
    | [] => .ok (.date d)
    | c :: rest => do
      checkPart .between "`T` between date and time" (c == 'T' || c == 't' || c == ' ')
      let (t, rest) ← Clock.read rest
      let offset ← Offset.read rest
      .ok (.both d t offset)

def Datetime.read? (cs : List Char) : Option Datetime := (Datetime.read cs).toOption

end LogIntake.Toml
