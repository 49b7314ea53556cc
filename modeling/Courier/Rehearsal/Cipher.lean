import Courier.Session

namespace Courier.Rehearsal

/-- All bytes of a private key in one. -/
def mask (key : PrivateKey) : UInt8 :=
  key.bytes.foldl (· ^^^ ·) 0x5A

/-- A length byte, and that many bytes under the mask; what follows is ignored. -/
def unwrap (key : PrivateKey) : Bytes → Except TransferError Bytes
  | [] => .error .decryptionFailure
  | n :: bs =>
    if bs.length < n.toNat then .error .decryptionFailure
    else .ok ((bs.take n.toNat).map (· ^^^ mask key))

/-- Adds the key to the bytes, over and over. -/
def mix : (key rest : Bytes) → Bytes → Bytes
  | _, _, [] => []
  | key, k :: ks, b :: bs => (b ^^^ k) :: mix key ks bs
  | k :: ks, [], b :: bs => (b ^^^ k) :: mix (k :: ks) ks bs
  | [], [], bs => bs

def encrypt (key : SymmetricKey) (content : Bytes) : Bytes :=
  mix key.bytes key.bytes content

end Courier.Rehearsal
