import Courier.Text.Utf8
import Courier.Wire.Field

namespace Courier

/-- A name chosen here is printable ASCII; one read from a peer can hold any text without NUL. -/
@[ext] structure Name where
  text : String
  deriving DecidableEq

namespace Name

/-- The width of the field. -/
def fieldSize : Nat := 255

/-- The most text that leaves room for the closing zero. -/
def maxLength : Nat := 254

def empty : Name := ⟨""⟩

instance : Inhabited Name := ⟨empty⟩

def isEmpty (n : Name) : Bool := n.text.isEmpty

def bytes (n : Name) : Bytes := Text.Utf8.bytes n.text

def isPrintable (c : Char) : Bool :=
  decide (' ' ≤ c ∧ c ≤ '~')

/-- A name of at most 254 bytes, all printable ASCII; the length is judged first. -/
def ofText (text : String) : Except TransferError Name :=
  if (Text.Utf8.bytes text).length > maxLength then .error .nameTooLong
  else if text.toList.all isPrintable then .ok ⟨text⟩
  else .error .nameNotPrintable

def isAlphanumeric (c : Char) : Bool :=
  decide ('a' ≤ c ∧ c ≤ 'z' ∨ 'A' ≤ c ∧ c ≤ 'Z' ∨ '0' ≤ c ∧ c ≤ '9')

/-- A user name: a name that is not empty and has ASCII letters and digits only. -/
def ofUsername (text : String) : Except TransferError Name :=
  if text.isEmpty then .error .usernameEmpty
  else if text.toList.all isAlphanumeric then
    (ofText text).mapError fun e => .invalidUsername e.message
  else .error .usernameNotAlphanumeric

/-- The field: the text, cut after 254 bytes, and zeros. -/
def toWire (n : Name) : Bytes :=
  Bytes.padTo fieldSize (n.bytes.take maxLength)

@[simp] theorem length_toWire (n : Name) : n.toWire.length = fieldSize :=
  Bytes.length_padTo (by simp only [List.length_take, fieldSize, maxLength]; omega)

/-- Reads a field up to its first zero, or its first 254 bytes if none of them is zero. Broken
UTF-8 is replaced and never refused. -/
def ofWire (field : Bytes) : Name :=
  ⟨String.ofList (Text.Utf8.decodeLossy ((field.take maxLength).takeWhile (· != 0)))⟩

/-- The name as its own field gives it back. -/
def reread (n : Name) : Name :=
  ofWire n.toWire

/-- Reads a name from the head of `data`. -/
def take (data : Bytes) : Except TransferError (Name × Bytes) :=
  (Wire.takeField fieldSize data).map fun r => (ofWire r.1.val, r.2)

theorem take_append (n : Name) (rest : Bytes) :
    take (n.toWire ++ rest) = .ok (n.reread, rest) := by
  have h := Wire.takeField_append ⟨n.toWire, n.length_toWire⟩ rest
  simp only at h
  simp [take, h, Except.map, reread]

end Name

end Courier
