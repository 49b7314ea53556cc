import Courier.Wire.ClientId
import Courier.Wire.Key
import Courier.Wire.Name

namespace Courier

/-- The part of a session that outlives a run. -/
structure Identity where
  username : Name
  id : ClientId
  privateKey : PrivateKey
  deriving DecidableEq

inductive SessionState where
  | unidentified
  | registered
  | keyEstablished
  | transferring
  | done
  | denied
  | failed
  deriving DecidableEq

@[ext] structure Session where
  state : SessionState
  username : Name
  id : ClientId
  publicKey : Option PublicKey
  privateKey : Option PrivateKey
  symmetricKey : Option SymmetricKey
  pendingFile : Option Bytes
  deriving DecidableEq

namespace Session

/-- A client that never registered. -/
def new : Session :=
  ⟨.unidentified, .empty, .unassigned, none, none, none, none⟩

instance : Inhabited Session := ⟨new⟩

/-- Resumes from a stored identity. A session key is never stored. -/
def restore (identity : Identity) : Session where
  state := if identity.id.isAssigned then .registered else .unidentified
  username := identity.username
  id := identity.id
  publicKey := none
  privateKey := some identity.privateKey
  symmetricKey := none
  pendingFile := none

def requireId (s : Session) : Except TransferError ClientId :=
  if s.id.isAssigned then .ok s.id else .error .notRegistered

def requirePrivateKey (s : Session) : Except TransferError PrivateKey :=
  match s.privateKey with
  | some key => .ok key
  | none => .error .notRegistered

def requireSymmetricKey (s : Session) : Except TransferError SymmetricKey :=
  match s.symmetricKey with
  | some key => .ok key
  | none => .error .noSymmetricKey

/-- Adopts a fresh identity; a session key of an earlier one is dropped. -/
def adopt (s : Session) (identity : Identity) (publicKey : PublicKey) : Session :=
  { s with
    state := .registered
    username := identity.username
    id := identity.id
    publicKey := some publicKey
    privateKey := some identity.privateKey
    symmetricKey := none }

def withPublicKey (s : Session) (key : PublicKey) : Session :=
  { s with publicKey := some key }

def withPendingFile (s : Session) (path : Bytes) : Session :=
  { s with pendingFile := some path }

def installKey (s : Session) (key : SymmetricKey) : Session :=
  { s with symmetricKey := some key, state := .keyEstablished }

/-- Drops the session key and keeps the identity. -/
def dropKey (s : Session) : Session :=
  { s with
    symmetricKey := none
    state := if s.id.isAssigned then .registered else s.state }

/-- The server does not recognise the client. -/
def deny (s : Session) : Session :=
  { s with symmetricKey := none, state := .denied }

/-- Needs an identity and then a session key. -/
def beginTransfer (s : Session) : Except TransferError Session := do
  let _ ← s.requireId
  let _ ← s.requireSymmetricKey
  return { s with state := .transferring }

def finishTransfer (s : Session) : Session :=
  { s with state := .done }

def abandonTransfer (s : Session) : Session :=
  { s with state := .failed }

/-- Ends a transfer on an error that leaves the session key usable. -/
def interruptTransfer (s : Session) : Session :=
  { s with state := if s.state = .transferring then .keyEstablished else s.state }

end Session

end Courier
