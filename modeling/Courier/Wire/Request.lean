import Courier.Wire.Header
import Courier.Wire.Key
import Courier.Wire.Name

/-!
What the client asks of the server. Payloads after the header:

    registration, reconnection, verdict:  name (255)
    public key:                           name (255), key (160)
    upload:                               content size (4), name (255), content

Reading ignores the version, the declared payload size and whatever follows the payload.
-/

namespace Courier

/-- The client's judgement of the server's checksum for an upload. -/
inductive Verdict where
  | valid
  | invalid
  | finalInvalid
  deriving DecidableEq

inductive Request where
  | registration (name : Name)
  | sendPublicKey (id : ClientId) (name : Name) (key : PublicKey)
  | reconnect (id : ClientId) (name : Name)
  | sendFile (id : ClientId) (file : Name) (content : Bytes)
  | verdict (verdict : Verdict) (id : ClientId) (file : Name)
  deriving DecidableEq

def Verdict.code : Verdict → RequestCode
  | .valid => .validCrc
  | .invalid => .invalidCrc
  | .finalInvalid => .finalInvalidCrc

namespace Request

def code : Request → RequestCode
  | .registration _ => .registration
  | .sendPublicKey _ _ _ => .sendPublicKey
  | .reconnect _ _ => .reconnect
  | .sendFile _ _ _ => .sendFile
  | .verdict v _ _ => v.code

/-- The identity in the header; a registration has none yet. -/
def id : Request → ClientId
  | .registration _ => .unassigned
  | .sendPublicKey id _ _ | .reconnect id _ | .sendFile id _ _ | .verdict _ id _ => id

/-- The user's or the file's name. -/
def name : Request → Name
  | .registration name | .sendPublicKey _ name _ | .reconnect _ name => name
  | .sendFile _ file _ | .verdict _ _ file => file

/-- The same request about another name. -/
def withName (name : Name) : Request → Request
  | .registration _ => .registration name
  | .sendPublicKey id _ key => .sendPublicKey id name key
  | .reconnect id _ => .reconnect id name
  | .sendFile id _ content => .sendFile id name content
  | .verdict v id _ => .verdict v id name

/-- The bytes before the content of an upload. -/
def uploadHead : Nat := 259

def contentSize : Request → Nat
  | .sendFile _ _ content => content.length
  | _ => 0

def payloadSize : Request → Nat
  | .sendPublicKey _ _ _ => 415
  | .sendFile _ _ content => uploadHead + content.length
  | _ => 255

/-- Fails when the payload's size does not fit its 32-bit field. -/
def header (r : Request) : Except TransferError RequestHeader :=
  if r.payloadSize < UInt32.size then
    .ok ⟨r.id, protocolVersion, r.code.value, UInt32.ofNat r.payloadSize⟩
  else .error (.oversizedContent r.contentSize)

def payload : Request → Bytes
  | .registration name | .reconnect _ name => name.toWire
  | .verdict _ _ file => file.toWire
  | .sendPublicKey _ name key => name.toWire ++ key.bytes
  | .sendFile _ file content =>
    Bytes.ofWord32 (UInt32.ofNat content.length) ++ (file.toWire ++ content)

/-- The header and the payload, without padding. -/
def encode (r : Request) : Except TransferError Bytes :=
  r.header.map fun h => h.encode ++ r.payload

/-- An upload whose size its field can hold. -/
def upload (id : ClientId) (file : Name) (content : Bytes) : Except TransferError Request :=
  (header (.sendFile id file content)).map fun _ => .sendFile id file content

/-- Reads the payload of a request with the given code. -/
def decodePayload (code : RequestCode) (id : ClientId) (data : Bytes) :
    Except TransferError Request :=
  match code with
  | .registration => do
    let (name, _) ← Name.take data
    return .registration name
  | .sendPublicKey => do
    let (name, rest) ← Name.take data
    let (key, _) ← PublicKey.take rest
    return .sendPublicKey id name key
  | .reconnect => do
    let (name, _) ← Name.take data
    return .reconnect id name
  | .sendFile => do
    Wire.ensure uploadHead data
    let (size, rest) ← Wire.takeField 4 data
    let (file, content) ← Name.take rest
    Wire.ensure (Wire.fieldWord size).toNat content
    return .sendFile id file (content.take (Wire.fieldWord size).toNat)
  | .validCrc => do
    let (file, _) ← Name.take data
    return .verdict .valid id file
  | .invalidCrc => do
    let (file, _) ← Name.take data
    return .verdict .invalid id file
  | .finalInvalidCrc => do
    let (file, _) ← Name.take data
    return .verdict .finalInvalid id file

def decode (data : Bytes) : Except TransferError Request := do
  let header ← RequestHeader.decode data
  match RequestCode.ofValue? header.code with
  | none => throw (.unknownRequestCode header.code)
  | some code => decodePayload code header.id (data.drop RequestHeader.size)

theorem length_payload (r : Request) : r.payload.length = r.payloadSize := by
  cases r <;> simp [payload, payloadSize, Name.fieldSize, uploadHead, PublicKey.length_bytes]
  omega

end Request

end Courier
