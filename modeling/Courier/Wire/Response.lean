import Courier.Wire.Header
import Courier.Wire.Name

/-!
What the server answers. Payloads after the header:

    registered, delivered, reconnection denied:  client id (16)
    key, reconnection accepted:                  client id (16), encrypted key (the rest)
    file delivered:                              client id (16), content size (4), name (255), CRC (4)
    registration refused, server error:          nothing
-/

namespace Courier

inductive ResponsePayload where
  | registrationSuccess (id : ClientId)
  | registrationFailure
  | keyExchange (id : ClientId) (encryptedKey : Bytes)
  | fileDelivered (id : ClientId) (contentSize : UInt32) (file : Name) (checksum : UInt32)
  | messageDelivered (id : ClientId)
  | reconnectionAccepted (id : ClientId) (encryptedKey : Bytes)
  | reconnectionDenied (id : ClientId)
  | serverError
  deriving DecidableEq

namespace ResponsePayload

def code : ResponsePayload → ResponseCode
  | .registrationSuccess _ => .registrationSuccess
  | .registrationFailure => .registrationFailure
  | .keyExchange _ _ => .keyExchange
  | .fileDelivered _ _ _ _ => .fileDelivered
  | .messageDelivered _ => .messageDelivered
  | .reconnectionAccepted _ _ => .reconnectionAccepted
  | .reconnectionDenied _ => .reconnectionDenied
  | .serverError => .serverError

/-- The identity that the server echoes, where the payload has one. -/
def id? : ResponsePayload → Option ClientId
  | .registrationSuccess id | .keyExchange id _ | .fileDelivered id _ _ _ | .messageDelivered id
  | .reconnectionAccepted id _ | .reconnectionDenied id => some id
  | .registrationFailure | .serverError => none

def file? : ResponsePayload → Option Name
  | .fileDelivered _ _ file _ => some file
  | _ => none

def size : ResponsePayload → Nat
  | .registrationFailure | .serverError => 0
  | .registrationSuccess _ | .messageDelivered _ | .reconnectionDenied _ => 16
  | .keyExchange _ key | .reconnectionAccepted _ key => 16 + key.length
  | .fileDelivered _ _ _ _ => 279

def encode : ResponsePayload → Bytes
  | .registrationFailure | .serverError => []
  | .registrationSuccess id | .messageDelivered id | .reconnectionDenied id => id.bytes
  | .keyExchange id key | .reconnectionAccepted id key => id.bytes ++ key
  | .fileDelivered id contentSize file checksum =>
    id.bytes ++ (Bytes.ofWord32 contentSize ++ (file.toWire ++ Bytes.ofWord32 checksum))

/-- Reads a payload that is all of `data`; an encrypted key takes whatever follows the identity. -/
def decodeAs (code : ResponseCode) (data : Bytes) : Except TransferError ResponsePayload :=
  match code with
  | .registrationFailure => pure .registrationFailure
  | .serverError => pure .serverError
  | .registrationSuccess => do
    let (id, _) ← ClientId.take data
    return .registrationSuccess id
  | .messageDelivered => do
    let (id, _) ← ClientId.take data
    return .messageDelivered id
  | .reconnectionDenied => do
    let (id, _) ← ClientId.take data
    return .reconnectionDenied id
  | .keyExchange => do
    let (id, key) ← ClientId.take data
    return .keyExchange id key
  | .reconnectionAccepted => do
    let (id, key) ← ClientId.take data
    return .reconnectionAccepted id key
  | .fileDelivered => do
    Wire.ensure 279 data
    let (id, rest) ← ClientId.take data
    let (contentSize, rest) ← Wire.takeField 4 rest
    let (file, rest) ← Name.take rest
    let (checksum, _) ← Wire.takeField 4 rest
    return .fileDelivered id (Wire.fieldWord contentSize) file (Wire.fieldWord checksum)

def decode (code : UInt16) (data : Bytes) : Except TransferError ResponsePayload :=
  match ResponseCode.ofValue? code with
  | none => .error (.unknownResponseCode code)
  | some c => decodeAs c data

theorem length_encode (p : ResponsePayload) : p.encode.length = p.size := by
  cases p <;> simp [encode, size, ClientId.length_bytes, Name.fieldSize]

end ResponsePayload

structure Response where
  header : ResponseHeader
  payload : ResponsePayload
  deriving DecidableEq

namespace Response

/-- A payload under the header with its code and size. -/
def ofPayload (p : ResponsePayload) : Response :=
  ⟨.ofCode p.code (UInt32.ofNat (min p.size (UInt32.size - 1))), p⟩

def encode (r : Response) : Bytes :=
  r.header.encode ++ r.payload.encode

/-- Reads from `body` just the payload that `header` declares. -/
def decodeBody (header : ResponseHeader) (body : Bytes) : Except TransferError ResponsePayload := do
  Wire.ensure header.payloadSize.toNat body
  ResponsePayload.decode header.code (body.take header.payloadSize.toNat)

def decode (data : Bytes) : Except TransferError Response := do
  let header ← ResponseHeader.decode data
  let payload ← decodeBody header (data.drop ResponseHeader.size)
  return ⟨header, payload⟩

end Response

end Courier
