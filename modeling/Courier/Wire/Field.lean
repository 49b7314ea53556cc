import Courier.Error

namespace Courier.Wire

/-- A field of exactly `width` bytes. -/
abbrev Field (width : Nat) := { field : Bytes // field.length = width }

/-- Fails unless `need` bytes are left in `data`. -/
def ensure (need : Nat) (data : Bytes) : Except TransferError Unit :=
  if data.length < need then .error (.truncatedPayload need data.length) else .ok ()

/-- The first `width` bytes of `data` and what follows them. -/
def takeField (width : Nat) (data : Bytes) : Except TransferError (Field width × Bytes) :=
  if h : data.length < width then .error (.truncatedPayload width data.length)
  else .ok (⟨data.take width, by simp; omega⟩, data.drop width)

theorem takeField_append {width : Nat} (field : Field width) (rest : Bytes) :
    takeField width (field.val ++ rest) = .ok (field, rest) := by
  obtain ⟨f, rfl⟩ := field
  have h : ¬(f ++ rest).length < f.length := by simp
  unfold takeField
  rw [dif_neg h]
  simp

/-- The value of a four-byte field, low byte first. -/
def fieldWord (field : Field 4) : UInt32 :=
  match field with
  | ⟨[b₀, b₁, b₂, b₃], _⟩ => Bytes.word32 b₀ b₁ b₂ b₃

theorem fieldWord_ofWord32 (w : UInt32) : fieldWord ⟨Bytes.ofWord32 w, rfl⟩ = w :=
  Bytes.word32_ofWord32 w

end Courier.Wire
