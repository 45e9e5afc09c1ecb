import LogIntake.Json.Writer
import LogIntake.Text.Numeral

/-!
Addresses of sockets: an internet address with a port, read strictly and written in the one short
form.
-/
namespace LogIntake.Http

inductive SocketAddress where
  /-- Four bytes and a port. -/
  | four (octets : List Nat) (port : Nat)
  /-- Eight groups of sixteen bits, a scope and a port. -/
  | six (groups : List Nat) (scope : Nat) (port : Nat)
deriving DecidableEq, Inhabited, Repr

namespace SocketAddress

/-! ### Reading -/

/-- A number with all its digits and what follows it. It is below `bound` and has at most `width`
digits, if a width is given. -/
def number? (isDigit : Char → Bool) (value : List Char → Nat) (bound : Nat) (width : Option Nat)
    (cs : List Char) : Option (Nat × List Char) :=
  let ds := cs.takeWhile isDigit
  if ds.isEmpty || (width.any fun w => w < ds.length) || bound ≤ value ds then none
  else some (value ds, cs.dropWhile isDigit)

def decimal? : Nat → Option Nat → List Char → Option (Nat × List Char) :=
  number? Char.isDigit Text.Numeral.value

def isHexDigit (c : Char) : Bool :=
  c.isDigit || ('a' ≤ c && c ≤ 'f') || ('A' ≤ c && c ≤ 'F')

def hexValue (cs : List Char) : Nat :=
  cs.foldl (fun n c =>
    16 * n + if c.isDigit then c.toNat - 48 else if 'a' ≤ c then c.toNat - 87 else c.toNat - 55) 0

def group? : List Char → Option (Nat × List Char) :=
  number? isHexDigit hexValue (1 <<< 16) (some 4)

def skip? (c : Char) : List Char → Option (List Char)
  | [] => none
  | d :: rest => if d = c then some rest else none

/-- A byte in decimal, without leading zeros. -/
def octet? (cs : List Char) : Option (Nat × List Char) := do
  let (n, rest) ← decimal? 256 (some 3) cs
  if cs.head? = some '0' ∧ (cs.takeWhile Char.isDigit).length ≠ 1 then none else some (n, rest)

def octets? (cs : List Char) : Option (List Nat × List Char) := do
  let (a, cs) ← octet? cs
  let cs ← skip? '.' cs
  let (b, cs) ← octet? cs
  let cs ← skip? '.' cs
  let (c, cs) ← octet? cs
  let cs ← skip? '.' cs
  let (d, cs) ← octet? cs
  some ([a, b, c, d], cs)

def behindColon? (first : Bool) (cs : List Char) : Option (List Char) :=
  if first then some cs else skip? ':' cs

/-- At most `room` groups with colons between them. The last two may be written as four bytes; the
flag says whether they were. -/
def groups (first : Bool) : Nat → List Char → List Nat × Bool × List Char
  | 0, cs => ([], false, cs)
  | room + 1, cs =>
    match behindColon? first cs with
    | none => ([], false, cs)
    | some inner =>
      match if room = 0 then none else octets? inner with
      | some (os, rest) =>
        match os with
        | [a, b, c, d] => ([a * 256 + b, c * 256 + d], true, rest)
        | _ => ([], false, cs)
      | none =>
        match group? inner with
        | none => ([], false, cs)
        | some (g, rest) =>
          let (more, embedded, rest) := groups false room rest
          (g :: more, embedded, rest)

/-- Eight groups, of which a double colon stands for one or more that are zero. -/
def eightGroups? (cs : List Char) : Option (List Nat × List Char) := do
  let (head, embedded, rest) := groups true 8 cs
  if head.length = 8 then some (head, rest)
  else if embedded then none
  else
    let rest ← skip? ':' rest
    let rest ← skip? ':' rest
    let (tail, _, rest) := groups true (7 - head.length) rest
    some (head ++ List.replicate (8 - head.length - tail.length) 0 ++ tail, rest)

def port? (cs : List Char) : Option Nat := do
  let cs ← skip? ':' cs
  let (port, rest) ← decimal? (1 <<< 16) none cs
  if rest.isEmpty then some port else none

def four? (cs : List Char) : Option SocketAddress := do
  let (octets, rest) ← octets? cs
  let port ← port? rest
  some (.four octets port)

def scope? (cs : List Char) : Option (Nat × List Char) :=
  match cs with
  | '%' :: rest => decimal? (1 <<< 32) none rest
  | _ => some (0, cs)

def six? (cs : List Char) : Option SocketAddress := do
  let cs ← skip? '[' cs
  let (gs, cs) ← eightGroups? cs
  let (scope, cs) ← scope? cs
  let cs ← skip? ']' cs
  let port ← port? cs
  some (.six gs scope port)

def read? (text : String) : Option SocketAddress := (four? text.toList).or (six? text.toList)

/-! ### Writing -/

def hexText (n : Nat) : String :=
  let ds := [n / 4096 % 16, n / 256 % 16, n / 16 % 16, n % 16].dropWhile (· == 0)
  String.ofList (if ds.isEmpty then ['0'] else ds.map Json.hexDigit)

def zeroRun (gs : List Nat) : Nat := (gs.takeWhile (· == 0)).length

/-- The first longest run of zeros: where it begins and how long it is. -/
def longestZeros (start : Nat) : List Nat → Nat × Nat
  | [] => (start, 0)
  | g :: gs =>
    let here := zeroRun (g :: gs)
    let (s, n) := longestZeros (start + 1) gs
    if n ≤ here then (start, here) else (s, n)

def groupsText (gs : List Nat) : String := ":".intercalate (gs.map hexText)

def octetsText (os : List Nat) : String := ".".intercalate (os.map Text.Numeral.text)

/-- An address of eight groups. The longest run of two or more zero groups is left out. -/
def sixText (gs : List Nat) : String :=
  match gs with
  | [0, 0, 0, 0, 0, 65535, a, b] => "::ffff:" ++ octetsText [a / 256, a % 256, b / 256, b % 256]
  | _ =>
    let (start, n) := longestZeros 0 gs
    if 1 < n then groupsText (gs.take start) ++ "::" ++ groupsText (gs.drop (start + n))
    else groupsText gs

def text : SocketAddress → String
  | four octets port => octetsText octets ++ ":" ++ Text.Numeral.text port
  | six gs scope port =>
    "[" ++ sixText gs ++ (if scope = 0 then "" else "%" ++ Text.Numeral.text scope) ++ "]:" ++
      Text.Numeral.text port

end SocketAddress

end LogIntake.Http
