import Courier.Client.RoundTrip

namespace Courier.Client

variable {ω : Type} (env : Environment ω)

/-- Resumes from the stored identity. -/
def restore : Action (Client ω) ClientId := do
  match ← consult env.loadIdentity .loadedIdentity with
  | none => Action.fail .noStoredIdentity
  | some identity =>
    changeSession fun _ => .restore identity
    let id ← require (·.requireId)
    report (.identityRestored identity.username id)
    return id

/-- Makes the keys for an identity that the server gave. It is stored before the session takes it
on. -/
def takeIdentity (name : Name) (id : ClientId) : Action (Client ω) ClientId := do
  let (publicKey, privateKey) ← consult env.generateKeys .generatedKeys
  let identity : Identity := ⟨name, id, privateKey⟩
  consult (env.storeIdentity identity) (.storedIdentity identity)
  changeSession (·.adopt identity publicKey)
  report (.registered id)
  return id

/-- Registers under a user name, with `otherwise` for an answer that is neither success nor
failure. -/
def registerOr (otherwise : ResponsePayload → Action (Client ω) ClientId) (username : String) :
    Action (Client ω) ClientId := do
  let name ← Action.ofExcept (Name.ofUsername username)
  match ← ask env (.registration name) .registrationSuccess with
  | .registrationSuccess id => takeIdentity env name id
  | .registrationFailure =>
    report .registrationRefused
    Action.fail .registrationDenied
  | other => otherwise other

def register : String → Action (Client ω) ClientId :=
  registerOr env (refuse .registrationSuccess)

end Courier.Client
