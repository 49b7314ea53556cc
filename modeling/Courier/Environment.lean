import Courier.Session
import Courier.Transport.Connection

namespace Courier

/-- What a client is given. Each function may fail, and each may change the world outside, whose
states are `ω`. -/
structure Environment (ω : Type) where
  /-- Opens a stream to the server. -/
  connect : ω → Except TransferError Stream × ω
  generateKeys : ω → Except TransferError (PublicKey × PrivateKey) × ω
  /-- The public key that belongs to a private key. -/
  derivePublicKey : PrivateKey → ω → Except TransferError PublicKey × ω
  /-- Decrypts key material from the server. -/
  unwrapKey : PrivateKey → Bytes → ω → Except TransferError Bytes × ω
  encrypt : SymmetricKey → Bytes → ω → Except TransferError Bytes × ω
  loadIdentity : ω → Except TransferError (Option Identity) × ω
  storeIdentity : Identity → ω → Except TransferError Unit × ω
  /-- The content of the file at a path. -/
  loadFile : Bytes → ω → Except TransferError Bytes × ω
  timeouts : Timeouts
  /-- Uploads after the first one, if the server's checksum differs. -/
  maxRetries : UInt32

end Courier
