import Courier.Bytes

namespace Courier

inductive RequestCode where
  | registration
  | sendPublicKey
  | reconnect
  | sendFile
  | validCrc
  | invalidCrc
  | finalInvalidCrc
  deriving DecidableEq

namespace RequestCode

def value : RequestCode → UInt16
  | .registration => 1100
  | .sendPublicKey => 1101
  | .reconnect => 1102
  | .sendFile => 1103
  | .validCrc => 1104
  | .invalidCrc => 1105
  | .finalInvalidCrc => 1106

def ofValue? (n : UInt16) : Option RequestCode :=
  match n.toNat with
  | 1100 => some .registration
  | 1101 => some .sendPublicKey
  | 1102 => some .reconnect
  | 1103 => some .sendFile
  | 1104 => some .validCrc
  | 1105 => some .invalidCrc
  | 1106 => some .finalInvalidCrc
  | _ => none

@[simp] theorem ofValue?_value (c : RequestCode) : ofValue? c.value = some c := by
  cases c <;> rfl

theorem value_of_ofValue? {n : UInt16} {c : RequestCode} (h : ofValue? n = some c) :
    c.value = n := by
  apply UInt16.toNat_inj.mp
  unfold ofValue? at h
  split at h <;> simp only [Option.some.injEq, reduceCtorEq] at h <;> subst h <;>
    simp_all [value]

end RequestCode

inductive ResponseCode where
  | registrationSuccess
  | registrationFailure
  | keyExchange
  | fileDelivered
  | messageDelivered
  | reconnectionAccepted
  | reconnectionDenied
  | serverError
  deriving DecidableEq

namespace ResponseCode

def value : ResponseCode → UInt16
  | .registrationSuccess => 2100
  | .registrationFailure => 2101
  | .keyExchange => 2102
  | .fileDelivered => 2103
  | .messageDelivered => 2104
  | .reconnectionAccepted => 2105
  | .reconnectionDenied => 2106
  | .serverError => 2107

def ofValue? (n : UInt16) : Option ResponseCode :=
  match n.toNat with
  | 2100 => some .registrationSuccess
  | 2101 => some .registrationFailure
  | 2102 => some .keyExchange
  | 2103 => some .fileDelivered
  | 2104 => some .messageDelivered
  | 2105 => some .reconnectionAccepted
  | 2106 => some .reconnectionDenied
  | 2107 => some .serverError
  | _ => none

@[simp] theorem ofValue?_value (c : ResponseCode) : ofValue? c.value = some c := by
  cases c <;> rfl

theorem value_of_ofValue? {n : UInt16} {c : ResponseCode} (h : ofValue? n = some c) :
    c.value = n := by
  apply UInt16.toNat_inj.mp
  unfold ofValue? at h
  split at h <;> simp only [Option.some.injEq, reduceCtorEq] at h <;> subst h <;>
    simp_all [value]

/-- The payload size that a code fixes; a response that carries a key has no fixed size. -/
def fixedSize? : ResponseCode → Option UInt32
  | .registrationSuccess | .messageDelivered | .reconnectionDenied => some 16
  | .fileDelivered => some 279
  | .registrationFailure | .serverError => some 0
  | .keyExchange | .reconnectionAccepted => none

/-- The refusal that may stand in for an expected answer. -/
def substitute? : ResponseCode → Option ResponseCode
  | .registrationSuccess => some .registrationFailure
  | .reconnectionAccepted => some .reconnectionDenied
  | _ => none

end ResponseCode

end Courier
