import Courier.Config.Basic
import Courier.Error
import Courier.Text.Blank
import Courier.Text.Decimal
import Courier.Text.Utf8

namespace Courier.Config

open Text

namespace Variable

def address : String := "SECURE_TRANSFER_SERVER_ADDRESS"
def connectionTimeout : String := "SECURE_TRANSFER_CONNECTION_TIMEOUT_MS"
def operationTimeout : String := "SECURE_TRANSFER_OPERATION_TIMEOUT_MS"
def responseTimeout : String := "SECURE_TRANSFER_RESPONSE_TIMEOUT_MS"
def maxRetries : String := "SECURE_TRANSFER_MAX_CRC_RETRIES"

end Variable

/-- The number in a variable, with blanks around it; none if the variable is not set. -/
def number? (lookup : String → Option String) (name : String) (bound : Nat) :
    Except TransferError (Option Nat) :=
  match lookup name with
  | none => .ok none
  | some text =>
    match Decimal.parse bound (trim text.toList) with
    | .ok n => .ok (some n)
    | .error e => .error (.config ("Invalid " ++ name ++ ": " ++ e.message))

/-- A number of milliseconds in a variable, or the given duration if it is not set. -/
def timeout (lookup : String → Option String) (name : String) (d : Duration) :
    Except TransferError Duration :=
  (number? lookup name Decimal.maxWord64).map fun n =>
    n.elim d fun ms => .ofMillis (UInt64.ofNat ms)

def ofVariables (lookup : String → Option String) : Except TransferError Config := do
  let c := ClientConfig.default
  let connection ← timeout lookup Variable.connectionTimeout c.connectionTimeout
  let operation ← timeout lookup Variable.operationTimeout c.operationTimeout
  let response ← timeout lookup Variable.responseTimeout c.responseTimeout
  let retries ← number? lookup Variable.maxRetries Decimal.maxWord32
  return {
    client := {
      address := (lookup Variable.address).getD c.address
      connectionTimeout := connection
      operationTimeout := operation
      responseTimeout := response
      maxRetries := retries.elim c.maxRetries UInt32.ofNat }
    logging := LoggingConfig.default }

/-- The variables, which hold bytes if they are set. -/
abbrev Variables := String → Option Bytes

/-- The text in a variable; one that is not UTF-8 counts as not set. -/
def Variables.lookup (env : Variables) (name : String) : Option String :=
  ((env name).bind Utf8.decode?).map String.ofList

def ofRawVariables (env : Variables) : Except TransferError Config :=
  ofVariables env.lookup

end Courier.Config
