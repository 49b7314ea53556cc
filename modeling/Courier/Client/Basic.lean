import Courier.Environment
import Courier.Wire.Request
import Courier.Wire.Validation

namespace Courier

/-- One request and what came of it. A notice is never answered. -/
structure RoundTrip where
  request : Request
  /-- The connection before anything was sent on it, unless it could not be opened. -/
  opened : Except TransferError Connection
  /-- The connection as it was left. -/
  left : Option Connection
  outcome : Except Stop (Option ResponsePayload)

inductive Act where
  | roundTrip (trip : RoundTrip)
  | generatedKeys (result : Except TransferError (PublicKey × PrivateKey))
  | derivedPublicKey (key : PrivateKey) (result : Except TransferError PublicKey)
  | unwrappedKey (key : PrivateKey) (wrapped : Bytes) (result : Except TransferError Bytes)
  | encrypted (key : SymmetricKey) (content : Bytes) (result : Except TransferError Bytes)
  | loadedIdentity (result : Except TransferError (Option Identity))
  | storedIdentity (identity : Identity) (result : Except TransferError Unit)
  | loadedFile (path : Bytes) (result : Except TransferError Bytes)

structure Client (ω : Type) where
  world : ω
  clock : Nat
  session : Session
  metrics : Metrics
  log : List Event
  /-- What the client did with its surroundings, in order. -/
  journal : List Act

namespace Client

variable {ω α : Type}

/-- A client that has done nothing yet. -/
def new (world : ω) : Client ω :=
  ⟨world, 0, .new, .zero, [], []⟩

/-- The streams that were opened, as they were left. -/
def streams (acts : List Act) : List Stream :=
  acts.filterMap fun
    | .roundTrip trip => trip.left.map Connection.stream
    | _ => none

/-- Asks something of the surroundings and notes it. -/
def consult (ask : ω → Except TransferError α × ω) (act : Except TransferError α → Act) :
    Action (Client ω) α :=
  fun c =>
    let (result, world) := ask c.world
    Action.ofExcept result { c with world, journal := c.journal ++ [act result] }

def report (e : Event) : Action (Client ω) Unit :=
  modify fun c => { c with log := c.log ++ [e] }

def count (step : Metrics → Metrics) : Action (Client ω) Unit :=
  modify fun c => { c with metrics := step c.metrics }

/-- What the session says, or a failure. -/
def require (f : Session → Except TransferError α) : Action (Client ω) α := do
  Action.ofExcept (f (← get).session)

def changeSession (f : Session → Session) : Action (Client ω) Unit :=
  modify fun c => { c with session := f c.session }

/-- Fails because a payload does not answer the request. -/
def refuse (expected : ResponseCode) (payload : ResponsePayload) : Action (Client ω) α :=
  Action.fail (.unexpectedResponseCode expected.value payload.code.value)

end Client

end Courier
