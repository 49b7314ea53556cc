import Courier.Client.RoundTrip

namespace Courier.Client

variable {ω : Type} (env : Environment ω)

/-- Reports an echoed identity that is not the client's own; nothing else comes of it. -/
def noteEcho (echoed : ClientId) : Action (Client ω) Unit := do
  let id := (← get).session.id
  if echoed ≠ id then report (.echoDiffers id echoed)

def unwrapKey (wrapped : Bytes) : Action (Client ω) SymmetricKey := do
  let key ← require (·.requirePrivateKey)
  let material ← consult (env.unwrapKey key wrapped) (.unwrappedKey key wrapped)
  Action.ofExcept (SymmetricKey.ofBytes material)

/-- Takes on the session key from the server. Without a usable one the session has none, not even
the one before. -/
def installKey (wrapped : Bytes) : Action (Client ω) Unit := do
  match ← Action.attempt (unwrapKey env wrapped) with
  | .ok key =>
    changeSession (·.installKey key)
    count (·.keyInstalled)
  | .error e =>
    report (.keyDiscarded e)
    changeSession (·.dropKey)
    Action.fail e

/-- The session's public key, which is derived from the private key when it is first needed. -/
def publicKey : Action (Client ω) PublicKey := do
  match (← get).session.publicKey with
  | some key => return key
  | none =>
    let privateKey ← require (·.requirePrivateKey)
    let key ← consult (env.derivePublicKey privateKey) (.derivedPublicKey privateKey)
    changeSession (·.withPublicKey key)
    return key

/-- Takes on the key in an answer and says so. -/
def takeKey (echoed : ClientId) (wrapped : Bytes) (news : Event) : Action (Client ω) Unit := do
  noteEcho echoed
  installKey env wrapped
  report news

/-- Sends a public key and takes on the session key that comes back, with `otherwise` for an answer
without one. -/
def sendKeyOr (otherwise : ResponsePayload → Action (Client ω) Unit) (request : Request) :
    Action (Client ω) Unit := do
  match ← ask env request .keyExchange with
  | .keyExchange echoed wrapped => takeKey env echoed wrapped .keyEstablished
  | other => otherwise other

def exchangeKeysOr (otherwise : ResponsePayload → Action (Client ω) Unit) :
    Action (Client ω) Unit := do
  let id ← require (·.requireId)
  let key ← publicKey env
  sendKeyOr env otherwise (.sendPublicKey id (← get).session.username key)

def exchangeKeys : Action (Client ω) Unit :=
  exchangeKeysOr env (refuse .keyExchange)

/-- Asks the server to recognise the client and to issue a new session key, with `otherwise` for an
answer that neither accepts nor denies. -/
def reconnectOr (otherwise : ResponsePayload → Action (Client ω) Unit) :
    Action (Client ω) Unit := do
  let id ← require (·.requireId)
  let request := Request.reconnect id (← get).session.username
  match ← ask env request .reconnectionAccepted with
  | .reconnectionAccepted echoed wrapped => takeKey env echoed wrapped .reconnected
  | .reconnectionDenied _ =>
    changeSession (·.deny)
    report .reconnectionDenied
    Action.fail .reconnectionDenied
  | other => otherwise other

def reconnect : Action (Client ω) Unit :=
  reconnectOr env (refuse .reconnectionAccepted)

end Courier.Client
