import Courier.Proofs.Wire.Answer

namespace Courier

namespace ResponsePayload

variable {data : Bytes}

theorem decodeAs_of_size {code : ResponseCode} {size : UInt32} (hc : code.fixedSize? = some size)
    (hl : data.length = size.toNat) : ∃ p, decodeAs code data = .ok p ∧ p.size = data.length := by
  rw [hl]
  cases code with
  | keyExchange => cases hc
  | reconnectionAccepted => cases hc
  | registrationFailure =>
    cases hc
    exact ⟨.registrationFailure, rfl, rfl⟩
  | serverError =>
    cases hc
    exact ⟨.serverError, rfl, rfl⟩
  | registrationSuccess | messageDelivered | reconnectionDenied =>
    cases hc
    obtain ⟨id, hid⟩ := ClientId.take_of_le (Nat.le_of_eq hl.symm)
    rw [decodeAs, hid, ok_bind]
    exact ⟨_, rfl, rfl⟩
  | fileDelivered =>
    cases hc
    have hl : data.length = 279 := hl
    have h16 : (data.drop 16).length = 263 := by
      rw [List.length_drop, hl]
    have h20 : ((data.drop 16).drop 4).length = 259 := by
      rw [List.length_drop, h16]
    have h275 : (((data.drop 16).drop 4).drop 255).length = 4 := by
      rw [List.length_drop, h20]
    obtain ⟨id, hid⟩ : ∃ id, ClientId.take data = .ok (id, data.drop 16) :=
      ClientId.take_of_le (by omega)
    obtain ⟨contentSize, hcontent⟩ := @Wire.takeField_of_le 4 (data.drop 16) (by omega)
    obtain ⟨file, hfile⟩ := Name.take_of_le (Nat.le_trans (by decide) (Nat.le_of_eq h20.symm))
    obtain ⟨checksum, hchecksum⟩ := Wire.takeField_of_le (Nat.le_of_eq h275.symm)
    rw [decodeAs, Wire.ensure_of_le (Nat.le_of_eq hl.symm), ok_bind, hid, ok_bind]
    dsimp only
    rw [hcontent, ok_bind]
    dsimp only
    rw [hfile, ok_bind]
    dsimp only
    rw [hchecksum, ok_bind]
    exact ⟨_, rfl, rfl⟩

/-- A response without a fixed size has an identity and then its key. -/
theorem decodeAs_of_le {code : ResponseCode} (hc : code.fixedSize? = none)
    (hl : 16 ≤ data.length) : ∃ p, decodeAs code data = .ok p ∧ p.size = data.length := by
  obtain ⟨id, hid⟩ := ClientId.take_of_le hl
  have hsize : 16 + (data.drop 16).length = data.length := by
    rw [List.length_drop]
    omega
  cases code with
  | keyExchange | reconnectionAccepted =>
    rw [decodeAs, hid, ok_bind]
    exact ⟨_, rfl, hsize⟩
  | _ => cases hc

theorem decodeAs_of_lt {code : ResponseCode} (hc : code.fixedSize? = none)
    (hl : data.length < 16) :
    decodeAs code data = .error (.truncatedPayload 16 data.length) := by
  cases code with
  | keyExchange | reconnectionAccepted => rw [decodeAs, ClientId.take_of_lt hl, error_bind]
  | _ => cases hc

end ResponsePayload

namespace ResponseHeader

variable {h : ResponseHeader} {expected : ResponseCode}

/-- The response has to bring a key, and has no room for the identity before it. -/
def IsShortForKey (h : ResponseHeader) : Prop :=
  (h.code = ResponseCode.keyExchange.value ∨ h.code = ResponseCode.reconnectionAccepted.value) ∧
    h.payloadSize.toNat < 16

theorem isShortForKey_iff {code : ResponseCode} (hc : code.value = h.code) :
    h.IsShortForKey ↔ code.fixedSize? = none ∧ h.payloadSize.toNat < 16 := by
  unfold IsShortForKey
  rw [← hc]
  cases code <;> simp [ResponseCode.value, ResponseCode.fixedSize?]

/-- An accepted header has an expected code, and the size that the code fixes. -/
theorem code_of_validate (hv : h.validate expected = .ok ()) :
    ∃ code : ResponseCode, code.value = h.code ∧
      (code = expected ∨ expected.substitute? = some code) ∧
      ∀ size, code.fixedSize? = some size → h.payloadSize = size := by
  unfold validate at hv
  split at hv
  · cases hv
  split at hv
  · rename_i hanswers
    have hcode : ∃ code : ResponseCode, code.value = h.code ∧
        (code = expected ∨ expected.substitute? = some code) := by
      rcases Bool.or_eq_true_iff.mp hanswers with hexpected | hsubstitute
      · exact ⟨expected, (beq_iff_eq.mp hexpected).symm, .inl rfl⟩
      · unfold isSubstitute at hsubstitute
        split at hsubstitute
        · rename_i code hs
          exact ⟨code, beq_iff_eq.mp hsubstitute, .inr hs⟩
        · cases hsubstitute
    obtain ⟨code, hvalue, hcases⟩ := hcode
    refine ⟨code, hvalue, hcases, fun size hsize => ?_⟩
    have hfixed : h.code?.bind ResponseCode.fixedSize? = some size := by
      rw [code?, ← hvalue, ResponseCode.ofValue?_value]
      exact hsize
    unfold checkSize at hv
    rw [hfixed] at hv
    simp only at hv
    split at hv
    · assumption
    · cases hv
  · cases hv

/-- What can be read under an accepted header, when all that it declares is there. -/
theorem decodeBody_of_validate (hv : h.validate expected = .ok ()) {body : Bytes}
    (hb : h.payloadSize.toNat ≤ body.length) :
    (h.IsShortForKey →
      Response.decodeBody h body = .error (.truncatedPayload 16 h.payloadSize.toNat)) ∧
    (¬h.IsShortForKey → ∃ p, Response.decodeBody h body = .ok p ∧ p.code.value = h.code ∧
      (p.code = expected ∨ expected.substitute? = some p.code) ∧
      p.size = h.payloadSize.toNat) := by
  obtain ⟨code, hvalue, hcases, hsize⟩ := code_of_validate hv
  have hlen : (body.take h.payloadSize.toNat).length = h.payloadSize.toNat :=
    List.length_take_of_le hb
  have hdecode : Response.decodeBody h body =
      ResponsePayload.decodeAs code (body.take h.payloadSize.toNat) := by
    rw [Response.decodeBody, Wire.ensure_of_le hb, ok_bind, ResponsePayload.decode, ← hvalue,
      ResponseCode.ofValue?_value]
  rw [hdecode, isShortForKey_iff hvalue]
  refine ⟨fun ⟨hnone, hlt⟩ => ?_, fun hlong => ?_⟩
  · rw [ResponsePayload.decodeAs_of_lt hnone (by rw [hlen]; exact hlt), hlen]
  · have hread : ∃ p, ResponsePayload.decodeAs code (body.take h.payloadSize.toNat) = .ok p ∧
        p.size = (body.take h.payloadSize.toNat).length := by
      cases hfixed : code.fixedSize? with
      | none =>
        apply ResponsePayload.decodeAs_of_le hfixed
        rw [hlen]
        exact Nat.le_of_not_lt fun hlt => hlong ⟨hfixed, hlt⟩
      | some size =>
        apply ResponsePayload.decodeAs_of_size hfixed
        rw [hlen, hsize size hfixed]
    obtain ⟨p, hp, hpsize⟩ := hread
    have hpcode : p.code = code := ResponsePayload.code_of_decodeAs hp
    refine ⟨p, hp, ?_, ?_, hpsize.trans hlen⟩
    · rw [hpcode, hvalue]
    · rw [hpcode]
      exact hcases

/-- No code that is unknown comes out of an accepted header, however much follows it. -/
theorem decodeBody_ne_unknown (hv : h.validate expected = .ok ()) (body : Bytes) (code : UInt16) :
    Response.decodeBody h body ≠ .error (.unknownResponseCode code) := by
  by_cases hb : h.payloadSize.toNat ≤ body.length
  · obtain ⟨hshort, hlong⟩ := decodeBody_of_validate hv hb
    by_cases hs : h.IsShortForKey
    · rw [hshort hs]
      simp
    · obtain ⟨p, hp, -⟩ := hlong hs
      rw [hp]
      simp
  · rw [Response.decodeBody, Wire.ensure_of_lt (Nat.lt_of_not_le hb), error_bind]
    simp

end ResponseHeader

end Courier
