import Courier.Bytes

namespace Courier

inductive TransferError where
  /-- A failure of the surroundings that no other cause describes. -/
  | io (text : String)
  | connectFailed (address reason : String)
  | writeFailed (text : String)
  | readFailed (text : String)
  | timeout
  | malformedHeader (need available : Nat)
  | truncatedPayload (need available : Nat)
  | unknownResponseCode (code : UInt16)
  | oversizedContent (size : Nat)
  | oversizedResponse (declared : UInt32) (limit : Nat)
  | unknownRequestCode (code : UInt16)
  | serverError
  | unexpectedResponseCode (expected got : UInt16)
  | payloadSizeMismatch (code : UInt16) (expected declared : UInt32)
  | invalidKeyMaterial (size : Nat)
  | invalidPublicKey (size : Nat)
  | integrityMismatch (local_ server : UInt32)
  | transferAbandoned (attempts : UInt32)
  | decryptionFailure
  | encryptionFailure
  | invalidName (reason : String)
  | invalidUsername (reason : String)
  | notRegistered
  | noSymmetricKey
  | registrationDenied
  | reconnectionDenied
  | persistence (text : String)
  | config (text : String)
  deriving DecidableEq

namespace TransferError

/-- Eight hexadecimal digits, most significant first. -/
def hexWord (w : UInt32) : String :=
  "0x" ++ Bytes.hex (Bytes.ofWord32 w).reverse

def message : TransferError → String
  | .io text => "I/O error: " ++ text
  | .connectFailed address reason => "Failed to connect to " ++ address ++ ": " ++ reason
  | .writeFailed text => "Transport write failed: " ++ text
  | .readFailed text => "Transport read failed: " ++ text
  | .timeout => "Timeout occurred"
  | .malformedHeader need available =>
    s!"Malformed header: need {need} bytes, have {available}"
  | .truncatedPayload need available =>
    s!"Truncated payload: need {need} bytes, have {available}"
  | .unknownResponseCode code => s!"Unknown response code: {code}"
  | .oversizedContent size => s!"Content of {size} bytes does not fit the 32-bit size field"
  | .oversizedResponse declared limit =>
    s!"Response declares {declared} payload bytes, limit is {limit}"
  | .unknownRequestCode code => s!"Unknown request code: {code}"
  | .serverError => "Server reported a general error"
  | .unexpectedResponseCode expected got =>
    s!"Unexpected response code: expected {expected}, got {got}"
  | .payloadSizeMismatch code expected declared =>
    s!"Payload size mismatch for code {code}: expected {expected}, declared {declared}"
  | .invalidKeyMaterial size =>
    s!"Invalid key material: decrypted key is {size} bytes, expected 16"
  | .invalidPublicKey size => s!"Invalid public key: {size} bytes, expected 160"
  | .integrityMismatch l s => "Checksum mismatch: local " ++ hexWord l ++ ", server " ++ hexWord s
  | .transferAbandoned attempts => s!"Transfer abandoned after {attempts} attempts"
  | .decryptionFailure => "Decryption failed"
  | .encryptionFailure => "Encryption failed"
  | .invalidName reason => "Invalid name: " ++ reason
  | .invalidUsername reason => "Invalid username: " ++ reason
  | .notRegistered => "Session has no client ID; register first"
  | .noSymmetricKey => "Session has no symmetric key; exchange keys or reconnect first"
  | .registrationDenied => "Server denied the registration"
  | .reconnectionDenied => "Server denied the reconnection"
  | .persistence text => "Persistence error: " ++ text
  | .config text => "Configuration error: " ++ text

/-- Only a disagreement about the checksum is worth another upload. -/
def isRetryable : TransferError → Bool
  | .integrityMismatch _ _ => true
  | _ => false

/-- The peer ended the stream too early. -/
def connectionClosed : TransferError :=
  .readFailed "Connection closed before the expected bytes arrived"

/-- The stream took none of the bytes it was given. -/
def zeroWrite : TransferError :=
  .writeFailed "Frame write reported zero bytes written"

def nameTooLong : TransferError :=
  .invalidName "Name exceeds 254 characters"

def nameNotPrintable : TransferError :=
  .invalidName "Name must be printable ASCII without NUL bytes"

def noFileName : TransferError :=
  .invalidName "Transfer path has no file name"

def usernameEmpty : TransferError :=
  .invalidUsername "Username cannot be empty"

def usernameNotAlphanumeric : TransferError :=
  .invalidUsername "Username may contain only alphanumeric characters"

def noStoredIdentity : TransferError :=
  .persistence "No stored identity available"

end TransferError

end Courier
