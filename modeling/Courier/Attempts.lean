namespace Courier

structure Attempts where
  remaining : Nat
  used : Nat
  deriving DecidableEq

namespace Attempts

/-- A 32-bit count has to hold the attempts, so the largest number of retries adds none. -/
def ofRetries (retries : UInt32) : Attempts :=
  ⟨min (retries.toNat + 1) (UInt32.size - 1), 0⟩

/-- Makes the next attempt, if one is left. -/
def next? (a : Attempts) : Option Attempts :=
  match a.remaining with
  | 0 => none
  | n + 1 => some ⟨n, a.used + 1⟩

def isExhausted (a : Attempts) : Bool :=
  a.remaining == 0

end Attempts

end Courier
