import Courier.Config.Address
import Courier.Config.Basic
import Courier.Text.Utf8

namespace Courier

inductive Violation where
  | addressEmpty
  | addressMalformed (address : String)
  | connectionTimeoutShort
  | connectionTimeoutLong
  | operationTimeoutShort
  | responseTimeoutShort
  | tooManyRetries (retries : UInt32)
  | appNameEmpty
  | appNameLong (length : Nat)
  deriving DecidableEq

def Violation.message : Violation → String
  | .addressEmpty => "Server address cannot be empty"
  | .addressMalformed address =>
    "Invalid server address format: '" ++ address ++ "' (expected format: 'host:port')"
  | .connectionTimeoutShort => "Connection timeout too short (minimum: 100ms)"
  | .connectionTimeoutLong => "Connection timeout too long (maximum: 300s)"
  | .operationTimeoutShort => "Operation timeout too short (minimum: 10ms)"
  | .responseTimeoutShort => "Response timeout too short (minimum: 100ms)"
  | .tooManyRetries retries => s!"Too many checksum retries: {retries} (maximum: 10)"
  | .appNameEmpty => "Application name cannot be empty"
  | .appNameLong length => s!"Application name too long: {length} characters (maximum: 64)"

namespace ClientConfig

def addressViolation (c : ClientConfig) : Option Violation :=
  if c.address.isEmpty then some .addressEmpty
  else if Address.isValid c.address then none
  else some (.addressMalformed c.address)

/-- The upper limit is on whole seconds. -/
def connectionViolation (c : ClientConfig) : Option Violation :=
  if c.connectionTimeout.millis < 100 then some .connectionTimeoutShort
  else if c.connectionTimeout.seconds.toNat > 300 then some .connectionTimeoutLong
  else none

def operationViolation (c : ClientConfig) : Option Violation :=
  if c.operationTimeout.millis < 10 then some .operationTimeoutShort else none

def responseViolation (c : ClientConfig) : Option Violation :=
  if c.responseTimeout.millis < 100 then some .responseTimeoutShort else none

def retriesViolation (c : ClientConfig) : Option Violation :=
  if c.maxRetries > 10 then some (.tooManyRetries c.maxRetries) else none

/-- The broken limits, at most one for each field. -/
def violations (c : ClientConfig) : List Violation :=
  [c.addressViolation, c.connectionViolation, c.operationViolation, c.responseViolation,
    c.retriesViolation].filterMap id

end ClientConfig

/-- The length of a name is counted in bytes. -/
def LoggingConfig.violations (c : LoggingConfig) : List Violation :=
  if c.appName.isEmpty then [.appNameEmpty]
  else if (Text.Utf8.bytes c.appName).length > 64 then
    [.appNameLong (Text.Utf8.bytes c.appName).length]
  else []

namespace Config

def violations (c : Config) : List Violation :=
  c.client.violations ++ c.logging.violations

/-- Fails with all violations at once. -/
def check (c : Config) : Except TransferError Unit :=
  match c.violations with
  | [] => .ok ()
  | vs =>
    .error (.config ("Configuration validation failed:\n  - "
      ++ "\n  - ".intercalate (vs.map Violation.message)))

end Config

end Courier
