import Courier.Wire.Key
import Courier.Wire.ClientId
import Courier.Wire.Name

namespace Courier

section Bind

variable {ε α β : Type}

theorem ok_bind (a : α) (f : α → Except ε β) : Except.ok a >>= f = f a :=
  rfl

theorem error_bind (e : ε) (f : α → Except ε β) : Except.error e >>= f = .error e :=
  rfl

theorem bind_eq_ok {x : Except ε α} {f : α → Except ε β} {b : β} :
    x >>= f = .ok b ↔ ∃ a, x = .ok a ∧ f a = .ok b := by
  cases x <;> simp [bind, Except.bind]

theorem bind_eq_error {x : Except ε α} {f : α → Except ε β} {e : ε} :
    x >>= f = .error e ↔ x = .error e ∨ ∃ a, x = .ok a ∧ f a = .error e := by
  cases x <;> simp [bind, Except.bind]

end Bind

namespace Wire

theorem ensure_of_le {need : Nat} {data : Bytes} (h : need ≤ data.length) :
    ensure need data = .ok () := by
  unfold ensure
  rw [if_neg (by omega)]

theorem ensure_of_lt {need : Nat} {data : Bytes} (h : data.length < need) :
    ensure need data = .error (.truncatedPayload need data.length) := by
  unfold ensure
  rw [if_pos h]

theorem takeField_of_lt {width : Nat} {data : Bytes} (h : data.length < width) :
    takeField width data = .error (.truncatedPayload width data.length) := by
  unfold takeField
  rw [dif_pos h]

theorem takeField_eq {width : Nat} {data : Bytes} (h : width ≤ data.length) :
    takeField width data =
      .ok (⟨data.take width, List.length_take_of_le h⟩, data.drop width) := by
  unfold takeField
  rw [dif_neg (by omega)]

theorem takeField_of_le {width : Nat} {data : Bytes} (h : width ≤ data.length) :
    ∃ field, takeField width data = .ok (field, data.drop width) :=
  ⟨_, takeField_eq h⟩

theorem takeField_word (w : UInt32) (rest : Bytes) :
    takeField 4 (Bytes.ofWord32 w ++ rest) =
      .ok (⟨Bytes.ofWord32 w, Bytes.length_ofWord32 w⟩, rest) :=
  takeField_append ⟨Bytes.ofWord32 w, Bytes.length_ofWord32 w⟩ rest

end Wire

theorem ClientId.take_of_lt {data : Bytes} (h : data.length < 16) :
    ClientId.take data = .error (.truncatedPayload 16 data.length) := by
  simp only [ClientId.take, Wire.takeField_of_lt h, Except.map]

theorem ClientId.take_eq {data : Bytes} (h : 16 ≤ data.length) :
    ClientId.take data = .ok (⟨data.take 16, List.length_take_of_le h⟩, data.drop 16) := by
  rw [ClientId.take, Wire.takeField_eq h]
  rfl

theorem ClientId.take_of_le {data : Bytes} (h : 16 ≤ data.length) :
    ∃ id, ClientId.take data = .ok (id, data.drop 16) :=
  ⟨_, ClientId.take_eq h⟩

theorem Name.take_eq {data : Bytes} (h : 255 ≤ data.length) :
    Name.take data = .ok (.ofWire (data.take 255), data.drop 255) := by
  rw [Name.take, Name.fieldSize, Wire.takeField_eq h]
  rfl

theorem Name.take_of_le {data : Bytes} (h : 255 ≤ data.length) :
    ∃ name, Name.take data = .ok (name, data.drop 255) :=
  ⟨_, Name.take_eq h⟩

theorem Name.take_of_lt {data : Bytes} (h : data.length < 255) :
    Name.take data = .error (.truncatedPayload 255 data.length) := by
  simp only [Name.take, Name.fieldSize, Wire.takeField_of_lt h, Except.map]

theorem PublicKey.take_eq {data : Bytes} (h : 160 ≤ data.length) :
    PublicKey.take data = .ok (⟨data.take 160, List.length_take_of_le h⟩, data.drop 160) := by
  rw [PublicKey.take, Wire.takeField_eq h]
  rfl

theorem PublicKey.take_of_lt {data : Bytes} (h : data.length < 160) :
    PublicKey.take data = .error (.truncatedPayload 160 data.length) := by
  simp only [PublicKey.take, Wire.takeField_of_lt h, Except.map]

end Courier
