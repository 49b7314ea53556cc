import Courier.Event
import Courier.Wire.Response

namespace Courier.ResponseHeader

/-- Whether a code may stand in for an expected one. -/
def isSubstitute (expected : ResponseCode) (code : UInt16) : Bool :=
  match expected.substitute? with
  | some s => s.value == code
  | none => false

/-- Whether a code answers a request that expects `expected`. -/
def answers (expected : ResponseCode) (code : UInt16) : Bool :=
  code == expected.value || isSubstitute expected code

/-- Whether the declared size is the one that the code fixes. -/
def checkSize (h : ResponseHeader) : Except TransferError Unit :=
  match h.code?.bind ResponseCode.fixedSize? with
  | some size =>
    if h.payloadSize = size then .ok ()
    else .error (.payloadSizeMismatch h.code size h.payloadSize)
  | none => .ok ()

/-- A server error always fails, whatever is expected. -/
def validate (h : ResponseHeader) (expected : ResponseCode) : Except TransferError Unit :=
  if h.code = ResponseCode.serverError.value then .error .serverError
  else if answers expected h.code then h.checkSize
  else .error (.unexpectedResponseCode expected.value h.code)

/-- The report on a header whose code is an answer but whose version is foreign. -/
def warnings (h : ResponseHeader) (expected : ResponseCode) : List Event :=
  if h.code ≠ ResponseCode.serverError.value ∧ answers expected h.code
      ∧ h.version ≠ protocolVersion then
    [.versionDiffers h.version h.code]
  else []

/-- The length of the response that the bytes of a header announce, once the header is judged. -/
def announced (expected : ResponseCode) (data : Bytes) : List Event × Except TransferError Nat :=
  match decode data with
  | .error e => ([], .error e)
  | .ok h => (h.warnings expected, do h.validate expected; h.responseLength)

end Courier.ResponseHeader
