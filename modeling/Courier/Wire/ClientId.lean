import Courier.Wire.Field

namespace Courier

@[ext] structure ClientId where
  bytes : Bytes
  length_bytes : bytes.length = 16

instance : DecidableEq ClientId := fun _ _ => decidable_of_iff _ ClientId.ext_iff.symm

namespace ClientId

def size : Nat := 16

/-- Sixteen zero bytes stand for "no identity yet". -/
def unassigned : ClientId :=
  ⟨List.replicate 16 0, rfl⟩

instance : Inhabited ClientId := ⟨unassigned⟩

def isAssigned (id : ClientId) : Bool :=
  decide (id ≠ unassigned)

@[simp] theorem isAssigned_unassigned : unassigned.isAssigned = false := rfl

def ofBytes? (bs : Bytes) : Option ClientId :=
  if h : bs.length = 16 then some ⟨bs, h⟩ else none

def ofField (field : Wire.Field 16) : ClientId :=
  ⟨field.val, field.property⟩

/-- The identity as it is shown: 32 hexadecimal digits. -/
def text (id : ClientId) : String :=
  Bytes.hex id.bytes

/-- Reads an identity from the head of `data`. -/
def take (data : Bytes) : Except TransferError (ClientId × Bytes) :=
  (Wire.takeField 16 data).map fun r => (ofField r.1, r.2)

theorem take_append (id : ClientId) (rest : Bytes) : take (id.bytes ++ rest) = .ok (id, rest) := by
  have h := Wire.takeField_append ⟨id.bytes, id.length_bytes⟩ rest
  simp only at h
  simp [take, h, Except.map, ofField]

end ClientId

end Courier
