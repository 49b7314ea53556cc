import Courier.Metrics
import Courier.Wire.Header
import Courier.Wire.Name

namespace Courier

inductive Event where
  | versionDiffers (version : UInt8) (code : UInt16)
  | echoDiffers (expected echoed : ClientId)
  | identityRestored (username : Name) (id : ClientId)
  | registered (id : ClientId)
  | registrationRefused
  | keyEstablished
  | reconnected
  | reconnectionDenied
  | keyDiscarded (error : TransferError)
  | checksumMismatch (attempt remaining : Nat) (error : TransferError)
  | transferConfirmed (file : Name) (attempts : Nat) (checksum : UInt32)
  | transferAbandoned (file : Name) (attempts : UInt32)
  | transferInterrupted (file : Name) (error : TransferError)
  | metricsSnapshot (metrics : Metrics)
  deriving DecidableEq

namespace Event

inductive Level where
  | info
  | warn
  deriving DecidableEq

/-- The value of a field. -/
inductive Datum where
  | number (n : Nat)
  | text (s : String)
  deriving DecidableEq

def level : Event → Level
  | .versionDiffers _ _ | .echoDiffers _ _ | .registrationRefused | .reconnectionDenied
  | .keyDiscarded _ | .checksumMismatch _ _ _ | .transferAbandoned _ _
  | .transferInterrupted _ _ => .warn
  | .identityRestored _ _ | .registered _ | .keyEstablished | .reconnected
  | .transferConfirmed _ _ _ | .metricsSnapshot _ => .info

def message : Event → String
  | .versionDiffers _ _ => "Response carries a different protocol version"
  | .echoDiffers _ _ => "Server echoed a different client id"
  | .identityRestored _ _ => "Identity restored"
  | .registered _ => "Registered"
  | .registrationRefused => "Server refused the registration"
  | .keyEstablished => "Session key established"
  | .reconnected => "Reconnected"
  | .reconnectionDenied => "Server denied the reconnection"
  | .keyDiscarded _ => "Discarding unusable session key"
  | .checksumMismatch _ _ _ => "Checksum mismatch"
  | .transferConfirmed _ _ _ => "Transfer confirmed"
  | .transferAbandoned _ _ => "Transfer abandoned"
  | .transferInterrupted _ _ => "Transfer interrupted"
  | .metricsSnapshot _ => "Transfer metrics snapshot"

def fields : Event → List (String × Datum)
  | .versionDiffers version code =>
    [("version", .number version.toNat), ("expected", .number protocolVersion.toNat),
      ("code", .number code.toNat)]
  | .echoDiffers expected echoed =>
    [("expected", .text expected.text), ("echoed", .text echoed.text)]
  | .identityRestored username id =>
    [("username", .text username.text), ("client_id", .text id.text)]
  | .registered id => [("client_id", .text id.text)]
  | .registrationRefused | .keyEstablished | .reconnected | .reconnectionDenied => []
  | .keyDiscarded error => [("error", .text error.message)]
  | .checksumMismatch attempt remaining error =>
    [("attempt", .number attempt), ("remaining", .number remaining),
      ("error", .text error.message)]
  | .transferConfirmed file attempts checksum =>
    [("file", .text file.text), ("attempts", .number attempts),
      ("checksum", .number checksum.toNat)]
  | .transferAbandoned file attempts =>
    [("file", .text file.text), ("attempts", .number attempts.toNat)]
  | .transferInterrupted file error =>
    [("file", .text file.text), ("error", .text error.message)]
  | .metricsSnapshot m => m.counters.map fun c => (c.1, .number c.2.toNat)

end Event

end Courier
