import Courier.ErrorRecord

namespace Courier.TransferError

variable {e e' : TransferError} {v : Value}

/-- The sizes that a cause tells. -/
def sizes : TransferError → List Nat
  | .malformedHeader need available | .truncatedPayload need available => [need, available]
  | .oversizedContent size | .invalidKeyMaterial size | .invalidPublicKey size => [size]
  | .oversizedResponse _ limit => [limit]
  | _ => []

theorem word16?_toNat (w : UInt16) : word16? (.integer w.toNat) = some w := by
  have hword : Value.natural? UInt16.size (.integer w.toNat) = some w.toNat := if_pos w.toNat_lt
  rw [word16?, hword, Option.map_some, UInt16.ofNat_toNat]

theorem word32?_toNat (w : UInt32) : word32? (.integer w.toNat) = some w := by
  have hword : Value.natural? UInt32.size (.integer w.toNat) = some w.toNat := if_pos w.toNat_lt
  rw [word32?, hword, Option.map_some, UInt32.ofNat_toNat]

theorem size?_of_lt {n : Nat} (h : n < UInt64.size) : size? (.integer n) = some n :=
  if_pos h

/-- A record names its cause: the tag stands alone, or over the cause's data. -/
theorem record?_cases (h : e.record? = some v) :
    e.data? = none ∧ v = .text e.tag ∨ ∃ data, e.data? = some data ∧ v = .table [(e.tag, data)] := by
  cases e with
  | io => cases h
  | timeout | serverError | decryptionFailure | encryptionFailure | notRegistered | noSymmetricKey
  | registrationDenied | reconnectionDenied =>
    cases h
    exact .inl ⟨rfl, rfl⟩
  | _ =>
    cases h
    exact .inr ⟨_, rfl, rfl⟩

theorem record?_eq_none_iff : e.record? = none ↔ ∃ text, e = .io text := by
  cases e <;> simp [record?, data?]

/-- A cause comes back from its record, if the sizes that it tells have 64 bits. -/
theorem ofRecord?_record (hsizes : ∀ n ∈ e.sizes, n < UInt64.size) (h : e.record? = some v) :
    ofRecord? v = some e := by
  cases e with
  | io => cases h
  | _ =>
    cases h
    simp_all [ofRecord?, ofData?, ofTag?, tag, sizes, Value.field?, Value.text?, List.lookup_cons,
      word16?_toNat, word32?_toNat, size?_of_lt]

/-- Causes with the same record are the same. -/
theorem eq_of_record?_eq (hsizes : ∀ n ∈ e.sizes, n < UInt64.size)
    (hsizes' : ∀ n ∈ e'.sizes, n < UInt64.size) (h : e.record? = some v) (h' : e'.record? = some v) :
    e = e' := by
  have hback := ofRecord?_record hsizes h
  rw [ofRecord?_record hsizes' h'] at hback
  exact (Option.some.inj hback).symm

end Courier.TransferError
