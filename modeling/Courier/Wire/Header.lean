import Courier.Wire.ClientId
import Courier.Wire.Code

/-!
The headers before a request's and a response's payload. All words are little-endian.

    request:   client id (16), version (1), code (2), payload size (4)
    response:  version (1), code (2), payload size (4)
-/

namespace Courier

/-- The protocol version this client speaks. -/
def protocolVersion : UInt8 := 3

structure RequestHeader where
  id : ClientId
  version : UInt8
  code : UInt16
  payloadSize : UInt32
  deriving DecidableEq

structure ResponseHeader where
  version : UInt8
  code : UInt16
  payloadSize : UInt32
  deriving DecidableEq

namespace RequestHeader

def size : Nat := 23

def encode (h : RequestHeader) : Bytes :=
  h.id.bytes ++ h.version :: (Bytes.ofWord16 h.code ++ Bytes.ofWord32 h.payloadSize)

def decode (data : Bytes) : Except TransferError RequestHeader :=
  if h : 23 ≤ data.length then
    .ok ⟨⟨data.take 16, by simp; omega⟩, data[16], Bytes.word16 data[17] data[18],
      Bytes.word32 data[19] data[20] data[21] data[22]⟩
  else .error (.malformedHeader size data.length)

@[simp] theorem length_encode (h : RequestHeader) : h.encode.length = size := by
  simp [encode, h.id.length_bytes, size]

theorem decode_encode_append (h : RequestHeader) (rest : Bytes) :
    decode (h.encode ++ rest) = .ok h := by
  obtain ⟨⟨bytes, hb⟩, version, code, payloadSize⟩ := h
  have hl : 23 ≤ (encode ⟨⟨bytes, hb⟩, version, code, payloadSize⟩ ++ rest).length := by
    rw [List.length_append, length_encode, size]; omega
  unfold decode
  rw [dif_pos hl]
  simp only [encode, List.append_assoc, List.cons_append, Bytes.ofWord16, Bytes.ofWord32,
    List.nil_append, Except.ok.injEq, RequestHeader.mk.injEq, ClientId.mk.injEq]
  refine ⟨by simp [← hb], ?_, ?_, ?_⟩
  · rw [List.getElem_append_right (by omega)]; simp [hb]
  · simp only [List.getElem_append_right (show bytes.length ≤ 17 by omega),
      List.getElem_append_right (show bytes.length ≤ 18 by omega), hb]
    exact Bytes.word16_ofWord16 code
  · simp only [List.getElem_append_right (show bytes.length ≤ 19 by omega),
      List.getElem_append_right (show bytes.length ≤ 20 by omega),
      List.getElem_append_right (show bytes.length ≤ 21 by omega),
      List.getElem_append_right (show bytes.length ≤ 22 by omega), hb]
    exact Bytes.word32_ofWord32 payloadSize

end RequestHeader

namespace ResponseHeader

def size : Nat := 7

/-- The header of a response with this code and payload size. -/
def ofCode (code : ResponseCode) (payloadSize : UInt32) : ResponseHeader :=
  ⟨protocolVersion, code.value, payloadSize⟩

/-- The code, if it is one of the protocol's. -/
def code? (h : ResponseHeader) : Option ResponseCode :=
  ResponseCode.ofValue? h.code

def encode (h : ResponseHeader) : Bytes :=
  h.version :: (Bytes.ofWord16 h.code ++ Bytes.ofWord32 h.payloadSize)

def decode (data : Bytes) : Except TransferError ResponseHeader :=
  match data with
  | v :: c₀ :: c₁ :: s₀ :: s₁ :: s₂ :: s₃ :: _ =>
    .ok ⟨v, Bytes.word16 c₀ c₁, Bytes.word32 s₀ s₁ s₂ s₃⟩
  | _ => .error (.malformedHeader size data.length)

@[simp] theorem length_encode (h : ResponseHeader) : h.encode.length = size := rfl

theorem decode_encode_append (h : ResponseHeader) (rest : Bytes) :
    decode (h.encode ++ rest) = .ok h := by
  simp only [encode, decode, Bytes.ofWord16, Bytes.ofWord32, List.cons_append, List.nil_append,
    Bytes.word16_ofWord16, Bytes.word32_ofWord32]

/-- The largest payload a response may declare. -/
def maxPayload : Nat := 65536

/-- The length of the whole response that a header announces. -/
def responseLength (h : ResponseHeader) : Except TransferError Nat :=
  if h.payloadSize.toNat > maxPayload then .error (.oversizedResponse h.payloadSize maxPayload)
  else .ok (size + h.payloadSize.toNat)

end ResponseHeader

end Courier
