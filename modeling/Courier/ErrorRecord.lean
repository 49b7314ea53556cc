import Courier.Error
import Courier.Value

namespace Courier.TransferError

def tag : TransferError → String
  | .io _ => "Io"
  | .connectFailed _ _ => "ConnectFailed"
  | .writeFailed _ => "TransportWrite"
  | .readFailed _ => "TransportRead"
  | .timeout => "Timeout"
  | .malformedHeader _ _ => "MalformedHeader"
  | .truncatedPayload _ _ => "TruncatedPayload"
  | .unknownResponseCode _ => "UnknownResponseCode"
  | .oversizedContent _ => "OversizedContent"
  | .oversizedResponse _ _ => "OversizedResponse"
  | .unknownRequestCode _ => "UnknownRequestCode"
  | .serverError => "ServerError"
  | .unexpectedResponseCode _ _ => "UnexpectedResponseCode"
  | .payloadSizeMismatch _ _ _ => "PayloadSizeMismatch"
  | .invalidKeyMaterial _ => "InvalidKeyMaterial"
  | .invalidPublicKey _ => "InvalidPublicKey"
  | .integrityMismatch _ _ => "IntegrityMismatch"
  | .transferAbandoned _ => "TransferAbandoned"
  | .decryptionFailure => "DecryptionFailure"
  | .encryptionFailure => "EncryptionFailure"
  | .invalidName _ => "InvalidName"
  | .invalidUsername _ => "InvalidUsername"
  | .notRegistered => "NotRegistered"
  | .noSymmetricKey => "NoSymmetricKey"
  | .registrationDenied => "RegistrationDenied"
  | .reconnectionDenied => "ReconnectionDenied"
  | .persistence _ => "Persistence"
  | .config _ => "ConfigError"

/-- The data of a cause, if it has any. -/
def data? : TransferError → Option Value
  | .io text | .writeFailed text | .readFailed text | .invalidName text | .invalidUsername text
  | .persistence text | .config text => some (.text text)
  | .connectFailed address reason =>
    some (.table [("address", .text address), ("reason", .text reason)])
  | .malformedHeader need available | .truncatedPayload need available =>
    some (.table [("need", .integer need), ("have", .integer available)])
  | .unknownResponseCode code | .unknownRequestCode code => some (.integer code.toNat)
  | .oversizedContent size | .invalidKeyMaterial size | .invalidPublicKey size =>
    some (.integer size)
  | .oversizedResponse declared limit =>
    some (.table [("declared", .integer declared.toNat), ("max", .integer limit)])
  | .unexpectedResponseCode expected got =>
    some (.table [("expected", .integer expected.toNat), ("got", .integer got.toNat)])
  | .payloadSizeMismatch code expected declared =>
    some (.table [("code", .integer code.toNat), ("expected", .integer expected.toNat),
      ("declared", .integer declared.toNat)])
  | .integrityMismatch l s =>
    some (.table [("local", .integer l.toNat), ("server", .integer s.toNat)])
  | .transferAbandoned attempts => some (.table [("attempts", .integer attempts.toNat)])
  | .timeout | .serverError | .decryptionFailure | .encryptionFailure | .notRegistered
  | .noSymmetricKey | .registrationDenied | .reconnectionDenied => none

def record? (e : TransferError) : Option Value :=
  match e with
  | .io _ => none
  | e =>
    match e.data? with
    | none => some (.text e.tag)
    | some data => some (.table [(e.tag, data)])

def word16? (v : Value) : Option UInt16 :=
  (v.natural? UInt16.size).map UInt16.ofNat

def word32? (v : Value) : Option UInt32 :=
  (v.natural? UInt32.size).map UInt32.ofNat

/-- A size is a 64-bit count. -/
def size? (v : Value) : Option Nat :=
  v.natural? UInt64.size

/-- The cause with this tag and no data. -/
def ofTag? : String → Option TransferError
  | "Timeout" => some .timeout
  | "ServerError" => some .serverError
  | "DecryptionFailure" => some .decryptionFailure
  | "EncryptionFailure" => some .encryptionFailure
  | "NotRegistered" => some .notRegistered
  | "NoSymmetricKey" => some .noSymmetricKey
  | "RegistrationDenied" => some .registrationDenied
  | "ReconnectionDenied" => some .reconnectionDenied
  | _ => none

/-- The cause with this tag and these data. Fields that the cause does not have are passed over. -/
def ofData? (tag : String) (v : Value) : Option TransferError :=
  match tag with
  | "ConnectFailed" =>
    return .connectFailed (← (← v.field? "address").text?) (← (← v.field? "reason").text?)
  | "TransportWrite" => v.text?.map .writeFailed
  | "TransportRead" => v.text?.map .readFailed
  | "MalformedHeader" =>
    return .malformedHeader (← size? (← v.field? "need")) (← size? (← v.field? "have"))
  | "TruncatedPayload" =>
    return .truncatedPayload (← size? (← v.field? "need")) (← size? (← v.field? "have"))
  | "UnknownResponseCode" => (word16? v).map .unknownResponseCode
  | "OversizedContent" => (size? v).map .oversizedContent
  | "OversizedResponse" =>
    return .oversizedResponse (← word32? (← v.field? "declared")) (← size? (← v.field? "max"))
  | "UnknownRequestCode" => (word16? v).map .unknownRequestCode
  | "UnexpectedResponseCode" =>
    return .unexpectedResponseCode (← word16? (← v.field? "expected"))
      (← word16? (← v.field? "got"))
  | "PayloadSizeMismatch" =>
    return .payloadSizeMismatch (← word16? (← v.field? "code"))
      (← word32? (← v.field? "expected")) (← word32? (← v.field? "declared"))
  | "InvalidKeyMaterial" => (size? v).map .invalidKeyMaterial
  | "InvalidPublicKey" => (size? v).map .invalidPublicKey
  | "IntegrityMismatch" =>
    return .integrityMismatch (← word32? (← v.field? "local")) (← word32? (← v.field? "server"))
  | "TransferAbandoned" => return .transferAbandoned (← word32? (← v.field? "attempts"))
  | "InvalidName" => v.text?.map .invalidName
  | "InvalidUsername" => v.text?.map .invalidUsername
  | "Persistence" => v.text?.map .persistence
  | "ConfigError" => v.text?.map .config
  | _ =>
    match v with
    | .null => ofTag? tag
    | _ => none

/-- Reads a record. -/
def ofRecord? : Value → Option TransferError
  | .text tag => ofTag? tag
  | .table [(tag, data)] => ofData? tag data
  | _ => none

end Courier.TransferError
