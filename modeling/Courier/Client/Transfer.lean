import Courier.Attempts
import Courier.Checksum
import Courier.Client.RoundTrip
import Courier.Path

/-!
Uploads. The server reports the checksum of what it decrypted. If that is the checksum of the file,
the client confirms it; if not, the client says so and uploads again, until its attempts are used up
and it gives the file up.
-/

namespace Courier

/-- What the server acknowledged of an upload. -/
structure Receipt where
  file : Name
  contentSize : UInt32
  checksum : UInt32
  deriving DecidableEq

/-- A file that has arrived, with the same checksum on both sides. -/
structure Delivery where
  file : Name
  /-- The uploads made, with the one that succeeded. -/
  attempts : Nat
  checksum : UInt32
  contentSize : UInt32
  deriving DecidableEq

namespace Client

variable {ω : Type} (env : Environment ω)

/-- Holds the checksum that the server reports against that of the content. If they differ the server
is told; whether that leads to another upload is left open here. -/
def judge (id : ClientId) (file : Name) (checksum : UInt32) (receipt : Receipt) :
    Action (Client ω) Receipt := do
  if receipt.checksum = checksum then return receipt
  else
    tell env (.verdict .invalid id file)
    Action.fail (.integrityMismatch checksum receipt.checksum)

/-- Sends an upload and judges the answer, with `otherwise` for one without a checksum. -/
def sendFileOr (otherwise : ResponsePayload → Action (Client ω) Receipt) (id : ClientId)
    (file : Name) (checksum : UInt32) (request : Request) : Action (Client ω) Receipt := do
  match ← ask env request .fileDelivered with
  | .fileDelivered _ contentSize delivered reported =>
    judge env id file checksum ⟨delivered, contentSize, reported⟩
  | other => otherwise other

/-- Uploads a file once. -/
def uploadOnceOr (otherwise : ResponsePayload → Action (Client ω) Receipt) (file : Name)
    (content : Bytes) : Action (Client ω) Receipt := do
  let id ← require (·.requireId)
  let checksum := Checksum.crc32 content
  let key ← require (·.requireSymmetricKey)
  let encrypted ← consult (env.encrypt key content) (.encrypted key content)
  let request ← Action.ofExcept (Request.upload id file encrypted)
  count (·.uploadAttempt)
  sendFileOr env otherwise id file checksum request

def uploadOnce : Name → Bytes → Action (Client ω) Receipt :=
  uploadOnceOr env (refuse .fileDelivered)

/-- Sends a verdict that the server has to acknowledge, with `otherwise` for an answer that does
not. -/
def sendVerdictOr (otherwise : ResponsePayload → Action (Client ω) Unit) (verdict : Verdict)
    (file : Name) : Action (Client ω) Unit := do
  let id ← require (·.requireId)
  match ← ask env (.verdict verdict id file) .messageDelivered with
  | .messageDelivered _ => return
  | other => otherwise other

def sendVerdict : Verdict → Name → Action (Client ω) Unit :=
  sendVerdictOr env (refuse .messageDelivered)

/-- Tells the server that the client gives a file up. -/
def giveUp (file : Name) : Action (Client ω) Unit :=
  sendVerdict env .finalInvalid file

/-- Confirms an upload that is right. -/
def confirm (file : Name) (receipt : Receipt) (attempts : Nat) : Action (Client ω) Delivery := do
  sendVerdict env .valid file
  return ⟨receipt.file, attempts, receipt.checksum, receipt.contentSize⟩

/-- Uploads until the checksums agree, `remaining` times at most after `used` attempts so far. -/
def upload (file : Name) (content : Bytes) :
    (remaining : Nat) → (used : Nat) → Action (Client ω) Delivery
  | 0, used => do
    giveUp env file
    Action.fail (.transferAbandoned (UInt32.ofNat used))
  | remaining + 1, used => do
    match ← Action.attempt (uploadOnce env file content) with
    | .ok receipt => confirm env file receipt (used + 1)
    | .error e =>
      if e.isRetryable then
        count (·.crcMismatch)
        report (.checksumMismatch (used + 1) remaining e)
        upload file content remaining (used + 1)
      else Action.fail e

def loadAndUpload (path : Bytes) (file : Name) : Action (Client ω) Delivery := do
  let content ← consult (env.loadFile path) (.loadedFile path)
  let attempts := Attempts.ofRetries env.maxRetries
  upload env file content attempts.remaining attempts.used

/-- Closes a transfer by its result. -/
def endTransfer (file : Name) : Except TransferError Delivery → Action (Client ω) Unit
  | .ok delivery => do
    changeSession (·.finishTransfer)
    count (·.transferCompleted)
    report (.transferConfirmed delivery.file delivery.attempts delivery.checksum)
  | .error (.transferAbandoned attempts) => do
    changeSession (·.abandonTransfer)
    count (·.transferAbandoned)
    report (.transferAbandoned file attempts)
  | .error e => do
    changeSession (·.interruptTransfer)
    report (.transferInterrupted file e)

/-- Uploads the file at a path under the last component of the path. -/
def transfer (path : Bytes) : Action (Client ω) Delivery := do
  changeSession (·.withPendingFile path)
  let file ← Action.ofExcept (Path.wireName path)
  let session ← require (·.beginTransfer)
  changeSession fun _ => session
  let result ← Action.attempt (loadAndUpload env path file)
  endTransfer file result
  report (.metricsSnapshot (← get).metrics)
  Action.ofExcept result

end Client

end Courier
