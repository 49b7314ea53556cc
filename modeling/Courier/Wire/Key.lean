import Courier.Wire.Field

namespace Courier

@[ext] structure PublicKey where
  bytes : Bytes
  length_bytes : bytes.length = 160

@[ext] structure SymmetricKey where
  bytes : Bytes
  length_bytes : bytes.length = 16

@[ext] structure PrivateKey where
  bytes : Bytes
  deriving DecidableEq

instance : DecidableEq PublicKey := fun _ _ => decidable_of_iff _ PublicKey.ext_iff.symm

instance : DecidableEq SymmetricKey := fun _ _ => decidable_of_iff _ SymmetricKey.ext_iff.symm

namespace PublicKey

def size : Nat := 160

def ofBytes (bs : Bytes) : Except TransferError PublicKey :=
  if h : bs.length = 160 then .ok ⟨bs, h⟩ else .error (.invalidPublicKey bs.length)

/-- Reads a key from the head of `data`. -/
def take (data : Bytes) : Except TransferError (PublicKey × Bytes) :=
  (Wire.takeField 160 data).map fun r => (⟨r.1.val, r.1.property⟩, r.2)

theorem take_append (k : PublicKey) (rest : Bytes) : take (k.bytes ++ rest) = .ok (k, rest) := by
  have h := Wire.takeField_append ⟨k.bytes, k.length_bytes⟩ rest
  simp only at h
  simp [take, h, Except.map]

/-- What a log may show of a key: its size. -/
def redacted (_ : PublicKey) : String := "PublicKey([160 bytes])"

end PublicKey

namespace SymmetricKey

/-- Unwrapped key material is a session key if it has sixteen bytes. -/
def ofBytes (bs : Bytes) : Except TransferError SymmetricKey :=
  if h : bs.length = 16 then .ok ⟨bs, h⟩ else .error (.invalidKeyMaterial bs.length)

def redacted (_ : SymmetricKey) : String := "SymmetricKey([REDACTED])"

end SymmetricKey

/-- What a log may show of a private key: its size. -/
def PrivateKey.redacted (k : PrivateKey) : String :=
  s!"PrivateKey([{k.bytes.length} bytes])"

end Courier
