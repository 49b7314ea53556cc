import Courier.Bytes

/-!
CRC-32 with the reflected polynomial `0xEDB88320`: the register starts from all ones, takes the
bytes in order, low bit first, and is complemented at the end.
-/

namespace Courier.Checksum

/-- One shift of the register; the polynomial is added when a one falls out. -/
def shift (r : UInt32) : UInt32 :=
  if r &&& 1 = 1 then (r >>> 1) ^^^ 0xEDB88320 else r >>> 1

/-- The register after one more byte. -/
def feed (r : UInt32) (b : UInt8) : UInt32 :=
  Nat.repeat shift 8 (r ^^^ b.toUInt32)

/-- The register after the bytes of `bs`. -/
def run (r : UInt32) (bs : Bytes) : UInt32 :=
  bs.foldl feed r

def crc32 (bs : Bytes) : UInt32 :=
  run 0xFFFFFFFF bs ^^^ 0xFFFFFFFF

@[simp] theorem run_nil (r : UInt32) : run r [] = r := rfl

end Courier.Checksum
