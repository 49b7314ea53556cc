import Courier.Environment
import Courier.Path
import Courier.Rehearsal.Cipher

namespace Courier.Rehearsal

/-- Failures that stand in for the results of operations. -/
structure Faults where
  generate : Option TransferError
  derive : Option TransferError
  unwrap : Option TransferError
  encrypt : Option TransferError
  load : Option TransferError
  store : Option TransferError
  read : Option TransferError

/-- No operation fails of itself. -/
def Faults.none : Faults := ⟨.none, .none, .none, .none, .none, .none, .none⟩

/-- What never changes. -/
structure Script where
  publicKey : Bytes
  privateKey : Bytes
  derivedKey : Bytes
  /-- Files under their paths. -/
  files : List (Bytes × Bytes)
  faults : Faults

/-- The world of an environment that is all in memory. -/
structure World where
  /-- What the connections still to come bring. -/
  peers : List (Except TransferError Stream)
  stored : Option Identity

def Script.defaultPublicKey : Bytes := List.replicate 160 0x50

def Script.defaultPrivateKey : Bytes := List.replicate 32 0x70

def exhausted : TransferError :=
  .connectFailed "scripted" "script exhausted"

/-- A path as text, with marks for what is not UTF-8. -/
def shown (path : Bytes) : String :=
  String.ofList (Text.Utf8.decodeLossy path)

def missingFile (path : String) : TransferError :=
  .persistence ("no such file: " ++ path)

variable {α : Type}

/-- A result, unless a fault stands in for it. -/
def faultOr (fault : Option TransferError) (result : Except TransferError α) :
    Except TransferError α :=
  match fault with
  | some e => .error e
  | none => result

namespace Script

def connect (w : World) : Except TransferError Stream × World :=
  match w.peers with
  | [] => (.error exhausted, w)
  | peer :: peers => (peer, { w with peers })

def store (s : Script) (identity : Identity) (w : World) : Except TransferError Unit × World :=
  match s.faults.store with
  | some e => (.error e, w)
  | none => (.ok (), { w with stored := some identity })

def loadFile (s : Script) (path : Bytes) : Except TransferError Bytes :=
  match s.files.find? fun file => Path.same file.1 path with
  | some file => .ok file.2
  | none => .error (missingFile (shown path))

def environment (s : Script) (timeouts : Timeouts) (maxRetries : UInt32) : Environment World where
  connect := connect
  generateKeys w :=
    (faultOr s.faults.generate ((PublicKey.ofBytes s.publicKey).map fun k => (k, ⟨s.privateKey⟩)), w)
  derivePublicKey _ w := (faultOr s.faults.derive (PublicKey.ofBytes s.derivedKey), w)
  unwrapKey key wrapped w := (faultOr s.faults.unwrap (unwrap key wrapped), w)
  encrypt key content w := (faultOr s.faults.encrypt (.ok (encrypt key content)), w)
  loadIdentity w := (faultOr s.faults.load (.ok w.stored), w)
  storeIdentity := s.store
  loadFile path w := (faultOr s.faults.read (s.loadFile path), w)
  timeouts := timeouts
  maxRetries := maxRetries

end Script

end Courier.Rehearsal
