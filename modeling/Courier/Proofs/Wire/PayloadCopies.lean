import Courier.Proofs.Wire.Grammar
import Courier.Proofs.Wire.ResponseRoundTrip
import Courier.Proofs.Wire.Stability

namespace Courier

namespace Bytes

variable {data : Bytes}

/-- A part and the one after it are one part. -/
theorem slice_append_slice (start m n : Nat) :
    data.slice start m ++ data.slice (start + m) n = data.slice start (m + n) := by
  rw [slice, slice, slice, List.take_add, List.drop_drop]

theorem ofWord32_word32 (b₀ b₁ b₂ b₃ : UInt8) :
    ofWord32 (word32 b₀ b₁ b₂ b₃) = [b₀, b₁, b₂, b₃] := by
  have h₀ := b₀.toNat_lt
  have h₁ := b₁.toNat_lt
  have h₂ := b₂.toNat_lt
  have h₃ := b₃.toNat_lt
  have hn : (word32 b₀ b₁ b₂ b₃).toNat =
      b₀.toNat + 256 * b₁.toNat + 65536 * b₂.toNat + 16777216 * b₃.toNat :=
    UInt32.toNat_ofNat_of_lt (by simp only [UInt32.size]; omega)
  simp only [ofWord32, hn, List.cons.injEq, and_true]
  refine ⟨?_, ?_, ?_, ?_⟩ <;> apply UInt8.toNat_inj.mp <;> rw [UInt8.toNat_ofNat'] <;> omega

theorem ofWord32_fieldWord (field : Wire.Field 4) : ofWord32 (Wire.fieldWord field) = field.val := by
  unfold Wire.fieldWord
  split
  exact ofWord32_word32 _ _ _ _

/-- A word that is there in full is written as it stands. -/
theorem ofWord32_word32At {i : Nat} (h : i + 4 ≤ data.length) :
    ofWord32 (data.word32At i) = data.slice i 4 := by
  have hlen : 4 ≤ (data.drop i).length := by
    rw [List.length_drop]
    omega
  rw [← Wire.fieldWord_take hlen, ofWord32_fieldWord]
  rfl

end Bytes

namespace ResponseCode

/-- The codes of responses are the numbers from 2100 to 2107. -/
theorem exists_value_iff {n : UInt16} :
    (∃ c : ResponseCode, c.value = n) ↔ 2100 ≤ n.toNat ∧ n.toNat ≤ 2107 := by
  constructor
  · rintro ⟨c, rfl⟩
    cases c <;> decide
  · rintro ⟨hlow, hhigh⟩
    have hn : n.toNat = 2100 ∨ n.toNat = 2101 ∨ n.toNat = 2102 ∨ n.toNat = 2103 ∨
        n.toNat = 2104 ∨ n.toNat = 2105 ∨ n.toNat = 2106 ∨ n.toNat = 2107 := by
      omega
    obtain h | h | h | h | h | h | h | h := hn
    · exact ⟨.registrationSuccess, UInt16.toNat_inj.mp h.symm⟩
    · exact ⟨.registrationFailure, UInt16.toNat_inj.mp h.symm⟩
    · exact ⟨.keyExchange, UInt16.toNat_inj.mp h.symm⟩
    · exact ⟨.fileDelivered, UInt16.toNat_inj.mp h.symm⟩
    · exact ⟨.messageDelivered, UInt16.toNat_inj.mp h.symm⟩
    · exact ⟨.reconnectionAccepted, UInt16.toNat_inj.mp h.symm⟩
    · exact ⟨.reconnectionDenied, UInt16.toNat_inj.mp h.symm⟩
    · exact ⟨.serverError, UInt16.toNat_inj.mp h.symm⟩

/-- The least that a payload under the code has. -/
def leastSize : ResponseCode → Nat
  | .registrationFailure | .serverError => 0
  | .fileDelivered => 279
  | .registrationSuccess | .messageDelivered | .reconnectionDenied | .keyExchange
  | .reconnectionAccepted => 16

/-- What is written of a payload that was read from `data`. A key takes all there is, and everything
else what its code has room for. A name goes through its field once more. -/
def copy (code : ResponseCode) (data : Bytes) : Bytes :=
  match code with
  | .keyExchange | .reconnectionAccepted => data
  | .fileDelivered =>
    data.slice 0 20 ++ ((Name.ofWire (data.slice 20 255)).toWire ++ data.slice 275 4)
  | .registrationSuccess | .registrationFailure | .messageDelivered | .reconnectionDenied
  | .serverError => data.take code.leastSize

end ResponseCode

namespace ResponsePayload

variable {code : ResponseCode} {value : UInt16} {data : Bytes}

theorem decodeAs_of_short (h : data.length < code.leastSize) :
    decodeAs code data = .error (.truncatedPayload code.leastSize data.length) := by
  cases code with
  | registrationFailure | serverError => exact absurd h (Nat.not_lt_zero _)
  | fileDelivered =>
    have h : data.length < 279 := h
    rw [decodeAs, Wire.ensure_of_lt h, error_bind]
    rfl
  | registrationSuccess | messageDelivered | reconnectionDenied | keyExchange
  | reconnectionAccepted =>
    rw [decodeAs, ClientId.take_of_lt h, error_bind]
    rfl

/-- The fields of a report on an upload stand at fixed places. -/
theorem decodeAs_report (h : 279 ≤ data.length) :
    ∃ id : ClientId, id.bytes = data.slice 0 16 ∧
      decodeAs .fileDelivered data =
        .ok (.fileDelivered id (data.word32At 16) (.ofWire (data.slice 20 255))
          (data.word32At 275)) := by
  have hid : 16 ≤ data.length := by omega
  have hsize : 4 ≤ (data.drop 16).length := by
    rw [List.length_drop]
    omega
  have hfile : 255 ≤ (data.drop 20).length := by
    rw [List.length_drop]
    omega
  have hchecksum : 4 ≤ (data.drop 275).length := by
    rw [List.length_drop]
    omega
  refine ⟨⟨data.slice 0 16, List.length_take_of_le hid⟩, rfl, ?_⟩
  rw [decodeAs, Wire.ensure_of_le h, ok_bind, ClientId.take_eq hid, ok_bind]
  dsimp only
  rw [Wire.takeField_eq hsize, ok_bind]
  dsimp only
  rw [List.drop_drop, Name.take_eq hfile, ok_bind]
  dsimp only
  rw [List.drop_drop, Wire.takeField_eq hchecksum, ok_bind]
  dsimp only
  rw [Wire.fieldWord_take hsize, Wire.fieldWord_take hchecksum]
  rfl

/-- Data that is long enough is read, and written again as far as it was read. -/
theorem decodeAs_copies (h : code.leastSize ≤ data.length) :
    ∃ p, decodeAs code data = .ok p ∧ p.encode = code.copy data := by
  cases code with
  | registrationFailure => exact ⟨.registrationFailure, rfl, rfl⟩
  | serverError => exact ⟨.serverError, rfl, rfl⟩
  | registrationSuccess | messageDelivered | reconnectionDenied =>
    rw [decodeAs, ClientId.take_eq h, ok_bind]
    exact ⟨_, rfl, rfl⟩
  | keyExchange | reconnectionAccepted =>
    rw [decodeAs, ClientId.take_eq h, ok_bind]
    exact ⟨_, rfl, List.take_append_drop 16 data⟩
  | fileDelivered =>
    have h : 279 ≤ data.length := h
    obtain ⟨id, hid, hread⟩ := decodeAs_report h
    have hsize : Bytes.ofWord32 (data.word32At 16) = data.slice 16 4 :=
      Bytes.ofWord32_word32At (by omega)
    have hchecksum : Bytes.ofWord32 (data.word32At 275) = data.slice 275 4 :=
      Bytes.ofWord32_word32At (by omega)
    have hhead : data.slice 0 16 ++ data.slice 16 4 = data.slice 0 20 :=
      Bytes.slice_append_slice 0 16 4
    refine ⟨_, hread, ?_⟩
    rw [encode, hid, hsize, hchecksum, ← List.append_assoc, hhead]
    rfl

theorem decodeAs_cases (code : ResponseCode) (data : Bytes) :
    (data.length < code.leastSize ∧
      decodeAs code data = .error (.truncatedPayload code.leastSize data.length)) ∨
    code.leastSize ≤ data.length ∧
      ∃ p, decodeAs code data = .ok p ∧ p.encode = code.copy data := by
  by_cases h : code.leastSize ≤ data.length
  · exact .inr ⟨h, decodeAs_copies h⟩
  · have hlt := Nat.lt_of_not_le h
    exact .inl ⟨hlt, decodeAs_of_short hlt⟩

theorem decodeAs_eq_truncated_iff {need available : Nat} :
    decodeAs code data = .error (.truncatedPayload need available) ↔
      data.length < code.leastSize ∧ need = code.leastSize ∧ available = data.length := by
  rcases decodeAs_cases code data with ⟨hlt, h⟩ | ⟨hle, p, h, -⟩
  · rw [h]
    simp [hlt, eq_comm]
  · have hnot : ¬data.length < code.leastSize := Nat.not_lt_of_le hle
    rw [h]
    simp [hnot]

theorem decode_of_value (h : code.value = value) : decode value data = decodeAs code data := by
  rw [decode, ← h, ResponseCode.ofValue?_value]

theorem decode_of_no_value (h : ¬∃ code : ResponseCode, code.value = value) :
    decode value data = .error (.unknownResponseCode value) := by
  have hnone : ResponseCode.ofValue? value = none := by
    cases hc : ResponseCode.ofValue? value with
    | none => rfl
    | some code => exact absurd ⟨code, ResponseCode.value_of_ofValue? hc⟩ h
  rw [decode, hnone]

theorem decode_eq_unknown_iff {other : UInt16} :
    decode value data = .error (.unknownResponseCode other) ↔
      other = value ∧ ¬(2100 ≤ value.toNat ∧ value.toNat ≤ 2107) := by
  rw [← ResponseCode.exists_value_iff]
  by_cases hcode : ∃ code : ResponseCode, code.value = value
  · obtain ⟨code, hc⟩ := hcode
    have hknown : ∃ code : ResponseCode, code.value = value := ⟨code, hc⟩
    rw [decode_of_value hc]
    rcases decodeAs_cases code data with ⟨-, h⟩ | ⟨-, p, h, -⟩ <;> simp [h, hknown]
  · rw [decode_of_no_value hcode, Except.error.injEq, TransferError.unknownResponseCode.injEq]
    constructor
    · intro h
      exact ⟨h.symm, hcode⟩
    · rintro ⟨rfl, -⟩
      rfl

/-- Data is read as a payload unless its code is none or it is too short for its code. A payload that
is read is written with the size it has, as a copy of the data; and it reads back from there just if
it has no name, or one that its own field keeps. -/
theorem decode_copies (value : UInt16) (data : Bytes) :
    (∀ other, decode value data = .error (.unknownResponseCode other) ↔
      other = value ∧ ¬(2100 ≤ value.toNat ∧ value.toNat ≤ 2107)) ∧
    (2100 ≤ value.toNat ∧ value.toNat ≤ 2107 → ∃ code : ResponseCode, code.value = value ∧
      (∀ need available, decode value data = .error (.truncatedPayload need available) ↔
        data.length < code.leastSize ∧ need = code.leastSize ∧ available = data.length) ∧
      (code.leastSize ≤ data.length →
        ∃ p, decode value data = .ok p ∧ p.code = code ∧ p.encode.length = p.size ∧
          p.encode = code.copy data) ∧
      ∀ p : ResponsePayload, p.code = code →
        (decode value p.encode = .ok p ↔ ∀ n, p.file? = some n → n.reread = n)) := by
  refine ⟨fun other => decode_eq_unknown_iff, ?_⟩
  intro hvalue
  obtain ⟨code, rfl⟩ := ResponseCode.exists_value_iff.mpr hvalue
  rw [decode_of_value rfl]
  refine ⟨code, rfl, fun need available => decodeAs_eq_truncated_iff, ?_, ?_⟩
  · intro h
    obtain ⟨p, hp, hcopy⟩ := decodeAs_copies h
    exact ⟨p, hp, code_of_decodeAs hp, p.length_encode, hcopy⟩
  · rintro p rfl
    rw [p.decode_encode, Except.ok.injEq]
    exact reread_eq_iff

/-- Of a report that is followed by six bytes more only the report is written. Its name, whose field
is not text, then reads back as another one. -/
theorem decode_copies_broken :
    let data : Bytes := List.replicate 285 0xFF
    ∃ p, decode 2103 data = .ok p ∧ p.encode.length = p.size ∧
      p.encode = ResponseCode.fileDelivered.copy data ∧ decode 2103 p.encode ≠ .ok p := by
  intro data
  have hl : 279 ≤ data.length := by
    rw [List.length_replicate]
    decide
  obtain ⟨-, hread⟩ := decode_copies 2103 data
  obtain ⟨code, hc, -, hcopies, hback⟩ := hread (by decide)
  obtain rfl : code = .fileDelivered := by
    cases code with
    | fileDelivered => rfl
    | _ => exact absurd hc (by decide)
  obtain ⟨p, hp, hcode, hlen, hcopy⟩ := hcopies hl
  have hname : p.file? = some (.ofWire (List.replicate 255 0xFF)) := by
    have hfield : data.slice 20 255 = List.replicate 255 0xFF := by
      rw [Bytes.slice, List.drop_replicate, List.take_replicate, Nat.min_eq_left (by decide)]
    obtain ⟨id, -, hreport⟩ := decodeAs_report hl
    rw [decode_of_value hc, hreport, hfield] at hp
    cases hp
    rfl
  have hlong : (Name.ofWire (List.replicate 255 0xFF)).bytes.length = 762 := by
    rw [Name.length_bytes, Name.ofWire, String.toList_ofList]
    decide +kernel
  refine ⟨p, hp, hlen, hcopy, ?_⟩
  intro hsame
  have hkept := (hback p hcode).mp hsame _ hname
  have hfits := (Name.reread_eq_iff (Name.nul_notMem_ofWire _)).mp hkept
  omega

end ResponsePayload

end Courier
