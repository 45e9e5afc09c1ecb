/-!
Points in time as the distance from the epoch, and their count of nanoseconds in 64 bits.
-/
namespace LogIntake

/-- A point in time, in nanoseconds after the epoch; negative before it. -/
structure Timestamp where
  nanoseconds : Int
deriving DecidableEq, Inhabited, Repr

namespace Timestamp

def epoch : Timestamp := ⟨0⟩

def ofSeconds (seconds : Int) (nanos : Nat) : Timestamp := ⟨seconds * 1000000000 + nanos⟩

/-- Nanoseconds since the epoch: zero before it, the largest count when there is no room. -/
def unixNanos (t : Timestamp) : Nat := min t.nanoseconds.toNat ((1 <<< 64) - 1)

end Timestamp

end LogIntake
