import Courier.Proofs.Wire.Name
import Courier.Proofs.Wire.Reading
import Courier.Wire.Request

namespace Courier

/-- The causes that say that bytes are missing. -/
def TransferError.IsShortage : TransferError → Prop
  | .malformedHeader _ _ | .truncatedPayload _ _ => True
  | _ => False

namespace Request

theorem withName_name (r : Request) : r.withName r.name = r := by
  cases r <;> rfl

/-- An upload of more content than its size field can describe. -/
def IsOversized : Request → Prop
  | .sendFile _ _ content => UInt32.size - 1 - uploadHead < content.length
  | _ => False

theorem fits_of_not_isOversized {r : Request} (h : ¬r.IsOversized) :
    r.payloadSize < UInt32.size := by
  cases r with
  | sendFile id file content =>
    simp only [IsOversized, uploadHead, UInt32.size] at h
    simp only [payloadSize, uploadHead, UInt32.size]
    omega
  | _ => simp [payloadSize, UInt32.size]

theorem encode_of_isOversized {r : Request} (h : r.IsOversized) :
    r.encode = .error (.oversizedContent r.contentSize) := by
  cases r with
  | sendFile id file content =>
    simp only [IsOversized, uploadHead, UInt32.size] at h
    have hs : ¬(sendFile id file content).payloadSize < UInt32.size := by
      simp only [payloadSize, uploadHead, UInt32.size]
      omega
    simp only [encode, header, hs, if_false, Except.map]
  | _ => exact h.elim

/-- The header under which a request is written. -/
def stamp (r : Request) : RequestHeader :=
  ⟨r.id, protocolVersion, r.code.value, UInt32.ofNat r.payloadSize⟩

theorem encode_of_not_isOversized {r : Request} (h : ¬r.IsOversized) :
    r.encode = .ok (r.stamp.encode ++ r.payload) := by
  have hs := fits_of_not_isOversized h
  simp only [encode, header, hs, if_true, Except.map, stamp]

theorem encode_eq_ok_iff {r : Request} {bytes : Bytes} :
    r.encode = .ok bytes ↔ ¬r.IsOversized ∧ bytes = r.stamp.encode ++ r.payload := by
  by_cases h : r.IsOversized
  · rw [encode_of_isOversized h]
    simp [h]
  · rw [encode_of_not_isOversized h]
    simp [h, eq_comm]

theorem toNat_stamp_payloadSize {r : Request} (h : ¬r.IsOversized) :
    r.stamp.payloadSize.toNat = r.payloadSize :=
  UInt32.toNat_ofNat_of_lt (fits_of_not_isOversized h)

theorem length_written (r : Request) :
    (r.stamp.encode ++ r.payload).length = 23 + r.payloadSize := by
  rw [List.length_append, RequestHeader.length_encode, length_payload]
  rfl

theorem length_content_lt {id : ClientId} {file : Name} {content : Bytes}
    (h : ¬(sendFile id file content).IsOversized) : content.length < UInt32.size := by
  simp only [IsOversized, uploadHead, UInt32.size] at h
  simp only [UInt32.size]
  omega

/-- A size field holds every length that fits it. -/
theorem fieldWord_length {content : Bytes} (h : content.length < UInt32.size) :
    (Wire.fieldWord ⟨Bytes.ofWord32 (UInt32.ofNat content.length), Bytes.length_ofWord32 _⟩).toNat =
      content.length := by
  rw [Wire.fieldWord_ofWord32]
  exact UInt32.toNat_ofNat_of_lt h

/-- The size field of an upload holds the length of its content. -/
theorem fieldWord_content {id : ClientId} {file : Name} {content : Bytes}
    (h : ¬(sendFile id file content).IsOversized) :
    (Wire.fieldWord ⟨Bytes.ofWord32 (UInt32.ofNat content.length), Bytes.length_ofWord32 _⟩).toNat =
      content.length :=
  fieldWord_length (length_content_lt h)

/-- An upload reads back if its size field holds the length of its content, whether or not the size
of its payload fits a header. -/
theorem decodePayload_upload {content : Bytes} (h : content.length < UInt32.size) (id : ClientId)
    (file : Name) (tail : Bytes) :
    decodePayload .sendFile id ((sendFile id file content).payload ++ tail) =
      .ok (.sendFile id file.reread content) := by
  have hw := fieldWord_length h
  have hl : uploadHead ≤ (Bytes.ofWord32 (UInt32.ofNat content.length) ++
      (file.toWire ++ (content ++ tail))).length := by
    simp only [List.length_append, Bytes.length_ofWord32, Name.length_toWire, Name.fieldSize,
      uploadHead]
    omega
  rw [payload, decodePayload, List.append_assoc, List.append_assoc, Wire.ensure_of_le hl,
    ok_bind, Wire.takeField_word, ok_bind]
  dsimp only
  rw [Name.take_append, ok_bind]
  dsimp only
  rw [hw, Wire.ensure_of_le (by simp), ok_bind, List.take_left]
  rfl

/-- A payload reads back under its own code, whatever follows it. -/
theorem decodePayload_append {r : Request} (h : ¬r.IsOversized) (tail : Bytes) :
    decodePayload r.code r.id (r.payload ++ tail) = .ok (r.withName r.name.reread) := by
  cases r with
  | registration name => rw [code, payload, decodePayload, Name.take_append, ok_bind]; rfl
  | sendPublicKey id name key =>
    rw [code, payload, decodePayload, List.append_assoc, Name.take_append, ok_bind]
    dsimp only
    rw [PublicKey.take_append, ok_bind]
    rfl
  | reconnect id name => rw [code, payload, decodePayload, Name.take_append, ok_bind]; rfl
  | sendFile id file content => exact decodePayload_upload (length_content_lt h) id file tail
  | verdict v id file =>
    cases v <;> rw [code, Verdict.code, payload, decodePayload, Name.take_append, ok_bind] <;> rfl

theorem length_take_payload {r : Request} {n : Nat} (hn : n < r.payloadSize) :
    (r.payload.take n).length = n := by
  rw [List.length_take, length_payload]
  omega

/-- A payload that is cut short is refused under its own code. -/
theorem decodePayload_take {r : Request} (h : ¬r.IsOversized) {n : Nat} (hn : n < r.payloadSize) :
    ∃ e, decodePayload r.code r.id (r.payload.take n) = .error e ∧ e.IsShortage := by
  have hl := length_take_payload hn
  cases r with
  | registration name =>
    rw [code, decodePayload, Name.take_of_lt (by rw [hl]; exact hn)]
    exact ⟨_, rfl, trivial⟩
  | sendPublicKey id name key =>
    rw [code, decodePayload]
    by_cases hs : n < 255
    · rw [Name.take_of_lt (by rw [hl]; exact hs)]
      exact ⟨_, rfl, trivial⟩
    · have hk : (key.bytes.take (n - 255)).length < 160 := by
        simp only [payloadSize] at hn
        rw [List.length_take, key.length_bytes]
        omega
      rw [payload, List.take_append, List.take_of_length_le (by simp [Name.fieldSize]; omega),
        Name.take_append, ok_bind]
      dsimp only
      rw [Name.length_toWire, Name.fieldSize, PublicKey.take_of_lt hk]
      exact ⟨_, rfl, trivial⟩
  | reconnect id name =>
    rw [code, decodePayload, Name.take_of_lt (by rw [hl]; exact hn)]
    exact ⟨_, rfl, trivial⟩
  | sendFile id file content =>
    rw [code, decodePayload]
    by_cases hs : n < uploadHead
    · rw [Wire.ensure_of_lt (by rw [hl]; exact hs)]
      exact ⟨_, rfl, trivial⟩
    · have hw := fieldWord_content h
      have hc : (content.take (n - uploadHead)).length < content.length := by
        simp only [payloadSize] at hn
        rw [List.length_take]
        omega
      have ht : (payload (sendFile id file content)).take n =
          Bytes.ofWord32 (UInt32.ofNat content.length) ++
            (file.toWire ++ content.take (n - uploadHead)) := by
        simp only [uploadHead] at hs ⊢
        rw [payload, List.take_append, List.take_append,
          List.take_of_length_le (by simp; omega),
          List.take_of_length_le (by simp [Name.fieldSize]; omega)]
        simp only [Bytes.length_ofWord32, Name.length_toWire, Name.fieldSize]
        rw [show n - 4 - 255 = n - 259 by omega]
      rw [Wire.ensure_of_le (by rw [hl]; omega), ok_bind, ht, Wire.takeField_word, ok_bind]
      dsimp only
      rw [Name.take_append, ok_bind]
      dsimp only
      rw [hw, Wire.ensure_of_lt hc]
      exact ⟨_, rfl, trivial⟩
  | verdict v id file =>
    cases v <;> rw [code, Verdict.code, decodePayload, Name.take_of_lt (by rw [hl]; exact hn)] <;>
      exact ⟨_, rfl, trivial⟩

/-- Whatever follows a header with a request's code and identity is read as that request's
payload. -/
theorem decode_stamp_append (r : Request) (rest : Bytes) :
    decode (r.stamp.encode ++ rest) = decodePayload r.code r.id rest := by
  rw [decode, RequestHeader.decode_encode_append, ok_bind]
  simp only [stamp, RequestCode.ofValue?_value]
  rw [List.drop_left' (RequestHeader.length_encode _)]

theorem decode_of_lt {data : Bytes} (h : data.length < 23) :
    decode data = .error (.malformedHeader 23 data.length) := by
  have hl : ¬23 ≤ data.length := by omega
  simp only [decode, RequestHeader.decode, hl, dite_false, error_bind, RequestHeader.size]

/-- No strict prefix of a written request reads as a request. -/
theorem decode_take {r : Request} (h : ¬r.IsOversized) {n : Nat} (hn : n < 23 + r.payloadSize) :
    ∃ e, decode ((r.stamp.encode ++ r.payload).take n) = .error e ∧ e.IsShortage := by
  by_cases hs : n < 23
  · have hl : ((r.stamp.encode ++ r.payload).take n).length < 23 := by
      rw [List.length_take]
      omega
    exact ⟨_, decode_of_lt hl, trivial⟩
  · have he : r.stamp.encode.length = 23 := RequestHeader.length_encode _
    rw [List.take_append, List.take_of_length_le (by omega), he, decode_stamp_append]
    exact decodePayload_take h (by omega)

/-- A request is written just when its size fits its field. What is written has the sizes that its
header and its content field declare, reads back whatever follows it, and cannot be cut short. -/
theorem encode_decode (r : Request) :
    ((∃ bytes, r.encode = .ok bytes) ↔ ¬r.IsOversized) ∧
    (r.IsOversized → r.encode = .error (.oversizedContent r.contentSize)) ∧
    ∀ bytes, r.encode = .ok bytes →
      bytes.length = 23 + r.payloadSize ∧
      (∃ h, RequestHeader.decode bytes = .ok h ∧ h.payloadSize.toNat = r.payloadSize) ∧
      (∀ id file content, r = .sendFile id file content →
        ∃ size rest, Wire.takeField 4 (bytes.drop 23) = .ok (size, rest) ∧
          (Wire.fieldWord size).toNat = content.length) ∧
      (∀ tail, decode (bytes ++ tail) = .ok (r.withName r.name.reread)) ∧
      (∀ text tail, Name.ofText text = .ok r.name → decode (bytes ++ tail) = .ok r) ∧
      (∀ cut, cut <+: bytes → cut ≠ bytes → ∃ e, decode cut = .error e ∧ e.IsShortage) := by
  refine ⟨⟨?_, ?_⟩, encode_of_isOversized, ?_⟩
  · rintro ⟨bytes, hb⟩ hover
    rw [encode_of_isOversized hover] at hb
    cases hb
  · intro h
    exact ⟨_, encode_of_not_isOversized h⟩
  intro bytes hb
  have h : ¬r.IsOversized := by
    intro hover
    rw [encode_of_isOversized hover] at hb
    cases hb
  rw [encode_of_not_isOversized h] at hb
  cases hb
  have hread (tail : Bytes) : decode (r.stamp.encode ++ r.payload ++ tail) =
      .ok (r.withName r.name.reread) := by
    rw [List.append_assoc, decode_stamp_append, decodePayload_append h]
  refine ⟨length_written r, ⟨r.stamp, RequestHeader.decode_encode_append _ _,
    toNat_stamp_payloadSize h⟩, ?_, hread, ?_, ?_⟩
  · rintro id file content rfl
    refine ⟨_, file.toWire ++ content, ?_, fieldWord_content h⟩
    have hdrop : ((sendFile id file content).stamp.encode ++
        (sendFile id file content).payload).drop 23 = (sendFile id file content).payload :=
      List.drop_left' (RequestHeader.length_encode _)
    rw [hdrop]
    exact Wire.takeField_word _ _
  · intro text tail ht
    rw [hread, Name.reread_of_ofText ht, withName_name]
  · intro cut hc hne
    obtain ⟨rest, he⟩ := hc
    have hcut : cut = (r.stamp.encode ++ r.payload).take cut.length := by
      rw [← he, List.take_left]
    have hlen := congrArg List.length he
    rw [List.length_append, length_written] at hlen
    have hrest : rest ≠ [] := by
      rintro rfl
      exact hne (by simpa using he)
    have hpos := List.length_pos_iff.mpr hrest
    rw [hcut]
    exact decode_take h (by omega)

/-- An upload of three bytes: with padding after it, and without its last byte. -/
theorem encode_decode_notes :
    ∃ r bytes, r = sendFile .unassigned ⟨"notes.txt"⟩ [1, 2, 3] ∧
      ¬r.IsOversized ∧ encode r = .ok bytes ∧ bytes.length = 285 ∧
      (∃ size rest, Wire.takeField 4 (bytes.drop 23) = .ok (size, rest) ∧
        (Wire.fieldWord size).toNat = 3) ∧
      Name.ofText "notes.txt" = .ok r.name ∧ decode (bytes ++ [0, 0]) = .ok r ∧
      bytes.take 284 <+: bytes ∧ bytes.take 284 ≠ bytes ∧
      ∃ e, decode (bytes.take 284) = .error e ∧ e.IsShortage := by
  let r := sendFile .unassigned ⟨"notes.txt"⟩ [1, 2, 3]
  obtain ⟨hiff, -, hall⟩ := encode_decode r
  have hfits : ¬r.IsOversized := by simp [r, IsOversized, uploadHead, UInt32.size]
  obtain ⟨bytes, hb⟩ := hiff.mpr hfits
  obtain ⟨hlen, -, hsize, -, hread, hcut⟩ := hall bytes hb
  have hname : Name.ofText "notes.txt" = .ok r.name := by cbv
  have hpre : bytes.take 284 <+: bytes := List.take_prefix 284 bytes
  have hne : bytes.take 284 ≠ bytes := by
    intro he
    have hl := congrArg List.length he
    rw [List.length_take, hlen] at hl
    simp [r, payloadSize, uploadHead] at hl
  exact ⟨r, bytes, rfl, hfits, hb, hlen, hsize _ _ _ rfl, hname, hread _ _ hname, hpre, hne,
    hcut _ hpre hne⟩

end Request

end Courier
