namespace Courier

@[ext] structure Duration where
  seconds : UInt64
  nanos : Fin 1000000000
  deriving DecidableEq

namespace Duration

def ofMillis (ms : UInt64) : Duration :=
  ⟨ms / 1000, ⟨ms.toNat % 1000 * 1000000, by omega⟩⟩

/-- Whole milliseconds, rounded down. -/
def millis (d : Duration) : Nat :=
  d.seconds.toNat * 1000 + d.nanos.val / 1000000

@[simp] theorem millis_ofMillis (ms : UInt64) : (ofMillis ms).millis = ms.toNat := by
  simp only [ofMillis, millis, UInt64.toNat_div, UInt64.reduceToNat]
  omega

end Duration

end Courier
