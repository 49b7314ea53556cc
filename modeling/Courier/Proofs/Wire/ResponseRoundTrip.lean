import Courier.Proofs.Wire.Answer
import Courier.Proofs.Wire.RequestRoundTrip
import Mathlib.Algebra.Group.Nat.Defs

namespace Courier

namespace ResponsePayload

/-- The encrypted key, where the payload brings one. -/
def key? : ResponsePayload → Option Bytes
  | .keyExchange _ key | .reconnectionAccepted _ key => some key
  | _ => none

/-- The size that a code fixes is the size of every payload under it. -/
theorem toNat_fixedSize {p : ResponsePayload} {n : UInt32} (h : p.code.fixedSize? = some n) :
    n.toNat = p.size := by
  cases p with
  | keyExchange id key => cases h
  | reconnectionAccepted id key => cases h
  | _ =>
    cases h
    rfl

/-- The payload with its name as the name's own field gives it back. -/
def reread : ResponsePayload → ResponsePayload
  | .fileDelivered id contentSize file checksum =>
    .fileDelivered id contentSize file.reread checksum
  | p => p

theorem reread_eq_iff {p : ResponsePayload} :
    p.reread = p ↔ ∀ n, p.file? = some n → n.reread = n := by
  cases p <;> simp [reread, file?]

/-- A payload reads back under its own code, except that a name comes back as its field keeps it. -/
theorem decodeAs_encode (p : ResponsePayload) : decodeAs p.code p.encode = .ok p.reread := by
  cases p with
  | registrationFailure => rfl
  | serverError => rfl
  | registrationSuccess id | messageDelivered id | reconnectionDenied id =>
    rw [code, encode, decodeAs, ← List.append_nil id.bytes, ClientId.take_append, ok_bind]
    rfl
  | keyExchange id key | reconnectionAccepted id key =>
    rw [code, encode, decodeAs, ClientId.take_append, ok_bind]
    rfl
  | fileDelivered id contentSize file checksum =>
    have hl : 279 ≤ (encode (.fileDelivered id contentSize file checksum)).length := by
      rw [length_encode]
      exact Nat.le_refl 279
    rw [code, decodeAs, Wire.ensure_of_le hl, ok_bind, encode, ClientId.take_append, ok_bind]
    dsimp only
    rw [Wire.takeField_word, ok_bind]
    dsimp only
    rw [Name.take_append, ok_bind]
    dsimp only
    rw [← List.append_nil (Bytes.ofWord32 checksum), Wire.takeField_word, ok_bind]
    dsimp only
    rw [Wire.fieldWord_ofWord32, Wire.fieldWord_ofWord32]
    rfl

theorem decode_encode (p : ResponsePayload) : decode p.code.value p.encode = .ok p.reread := by
  rw [decode, ResponseCode.ofValue?_value]
  exact p.decodeAs_encode

/-- A key is all that follows the identity. -/
theorem key_of_decodeAs {code : ResponseCode} {data key : Bytes} {p : ResponsePayload}
    (h : decodeAs code data = .ok p) (hk : p.key? = some key) : key = data.drop 16 := by
  have hcode := code_of_decodeAs h
  have htake {id : ClientId} {rest : Bytes} (ht : ClientId.take data = .ok (id, rest)) :
      rest = data.drop 16 := by
    unfold ClientId.take Wire.takeField at ht
    split at ht
    · cases ht
    · cases ht
      rfl
  cases p with
  | keyExchange id wrapped | reconnectionAccepted id wrapped =>
    cases hk
    cases hcode
    obtain ⟨⟨id', rest⟩, hid, h⟩ := bind_eq_ok.mp h
    cases h
    exact htake hid
  | _ => cases hk

end ResponsePayload

namespace Response

theorem ofPayload_payloadSize {p : ResponsePayload} (h : p.size ≤ 2 ^ 32 - 1) :
    (ofPayload p).header.payloadSize.toNat = p.size := by
  have hmin : min p.size (UInt32.size - 1) = p.size := Nat.min_eq_left h
  simp only [ofPayload, ResponseHeader.ofCode, hmin]
  exact UInt32.toNat_ofNat_of_lt (by simp only [UInt32.size]; omega)

theorem length_encode_ofPayload (p : ResponsePayload) :
    (ofPayload p).encode.length = 7 + p.size := by
  rw [encode, List.length_append, ResponseHeader.length_encode]
  exact congrArg _ p.length_encode

/-- After a header, a response is what the header declares of the rest. -/
theorem decode_header_append (h : ResponseHeader) (body : Bytes) :
    decode (h.encode ++ body) = (decodeBody h body).map fun p => ⟨h, p⟩ := by
  rw [decode, ResponseHeader.decode_encode_append, ok_bind,
    List.drop_left' (ResponseHeader.length_encode h)]
  cases decodeBody h body <;> rfl

theorem decode_encode_ofPayload {p : ResponsePayload} (hs : p.size ≤ 2 ^ 32 - 1)
    (hn : ∀ n, p.file? = some n → n.reread = n) (tail : Bytes) :
    decode ((ofPayload p).encode ++ tail) = .ok (ofPayload p) := by
  have hsize := ofPayload_payloadSize hs
  have hl : (ofPayload p).header.payloadSize.toNat ≤ (p.encode ++ tail).length := by
    rw [hsize, List.length_append, p.length_encode]
    exact Nat.le_add_right _ _
  have hbody : decodeBody (ofPayload p).header (p.encode ++ tail) = .ok p := by
    rw [decodeBody, Wire.ensure_of_le hl, ok_bind, hsize, ← p.length_encode, List.take_left]
    change ResponsePayload.decode p.code.value p.encode = .ok p
    rw [ResponsePayload.decode_encode, ResponsePayload.reread_eq_iff.mpr hn]
  rw [encode, List.append_assoc, decode_header_append]
  change (decodeBody (ofPayload p).header (p.encode ++ tail)).map _ = _
  rw [hbody]
  rfl

theorem decode_of_lt {data : Bytes} (h : data.length < 7) :
    decode data = .error (.malformedHeader 7 data.length) := by
  have hd : ResponseHeader.decode data = .error (.malformedHeader 7 data.length) := by
    unfold ResponseHeader.decode
    split
    · simp only [List.length_cons] at h
      omega
    · rfl
  rw [decode, hd, error_bind]

/-- No strict prefix of a written response reads as a response. -/
theorem decode_take_encode {p : ResponsePayload} (hs : p.size ≤ 2 ^ 32 - 1) {n : Nat}
    (hn : n < 7 + p.size) :
    ∃ e, decode ((ofPayload p).encode.take n) = .error e ∧ e.IsShortage := by
  by_cases h : n < 7
  · have hl : ((ofPayload p).encode.take n).length < 7 := by
      rw [List.length_take]
      omega
    exact ⟨_, decode_of_lt hl, trivial⟩
  · have hhead : (ofPayload p).header.encode.length = 7 := rfl
    have hbody : (p.encode.take (n - 7)).length < (ofPayload p).header.payloadSize.toNat := by
      rw [ofPayload_payloadSize hs, List.length_take, p.length_encode]
      omega
    rw [encode, List.take_append, List.take_of_length_le (by omega), hhead, decode_header_append]
    change ∃ e, (decodeBody (ofPayload p).header (p.encode.take (n - 7))).map _ = _ ∧ _
    rw [decodeBody, Wire.ensure_of_lt hbody]
    exact ⟨_, rfl, trivial⟩

/-- A key is what the declared payload has after the identity. -/
theorem key_of_decode {data key : Bytes} {r : Response} (h : decode data = .ok r)
    (hk : r.payload.key? = some key) :
    key = (data.take (7 + r.header.payloadSize.toNat)).drop 23 := by
  obtain ⟨hd, -, h⟩ := bind_eq_ok.mp h
  obtain ⟨p, hbody, h⟩ := bind_eq_ok.mp h
  cases h
  obtain ⟨_, -, hp⟩ := bind_eq_ok.mp hbody
  unfold ResponsePayload.decode at hp
  split at hp
  · cases hp
  · rw [ResponsePayload.key_of_decodeAs hp hk, List.take_drop, List.drop_drop]
    rfl

/-- A response whose size fits its field, and whose name its own field keeps, reads back whatever
follows it. Its sizes agree: what the header declares, what is written after it, and what the code
fixes. It cannot be cut short, and no key is ever read from beyond the declared payload. -/
theorem written_reads_back {p : ResponsePayload} (hs : p.size ≤ 2 ^ 32 - 1)
    (hn : ∀ n, p.file? = some n → n.reread = n) :
    (∀ tail, decode ((ofPayload p).encode ++ tail) = .ok (ofPayload p)) ∧
    (ofPayload p).encode.length = 7 + p.size ∧
    (ofPayload p).header.payloadSize.toNat = p.size ∧ p.encode.length = p.size ∧
    (∀ n, p.code.fixedSize? = some n → n.toNat = p.size) ∧
    (∀ cut, cut <+: (ofPayload p).encode → cut ≠ (ofPayload p).encode →
      ∃ e, decode cut = .error e ∧ e.IsShortage) ∧
    (∀ tail r, decode ((ofPayload p).encode ++ tail) = .ok r → r.payload.key? = p.key?) ∧
    ∀ data r key, decode data = .ok r → r.payload.key? = some key →
      key = (data.take (7 + r.header.payloadSize.toNat)).drop 23 := by
  refine ⟨decode_encode_ofPayload hs hn, length_encode_ofPayload p, ofPayload_payloadSize hs,
    p.length_encode, fun n => ResponsePayload.toNat_fixedSize, ?_, ?_,
    fun data r key => key_of_decode⟩
  · intro cut hc hne
    have hlt : cut.length < (ofPayload p).encode.length :=
      Nat.lt_of_le_of_ne hc.length_le fun hl => hne (hc.eq_of_length hl)
    rw [length_encode_ofPayload] at hlt
    rw [List.prefix_iff_eq_take.mp hc]
    exact decode_take_encode hs hlt
  · intro tail r hr
    rw [decode_encode_ofPayload hs hn tail] at hr
    cases hr
    rfl

/-- A file with a name, acknowledged in a frame that is padded with ones. -/
theorem written_reads_back_padded :
    ∃ p, p = ResponsePayload.fileDelivered .unassigned 3 ⟨"a"⟩ 7 ∧
      p.size ≤ 2 ^ 32 - 1 ∧ (∀ n, p.file? = some n → n.reread = n) ∧
      decode ((ofPayload p).encode ++ List.replicate 738 1) = .ok (ofPayload p) ∧
      (ofPayload p).encode.length = 286 ∧
      ∃ e, decode ((ofPayload p).encode.take 285) = .error e ∧ e.IsShortage := by
  let p := ResponsePayload.fileDelivered .unassigned 3 ⟨"a"⟩ 7
  have hs : p.size ≤ 2 ^ 32 - 1 := by decide
  have hn : ∀ n, p.file? = some n → n.reread = n := by
    intro n h
    cases h
    have htext : Name.ofText "a" = .ok ⟨"a"⟩ := by cbv
    exact Name.reread_of_ofText htext
  obtain ⟨hread, hlen, -, -, -, hcut, -⟩ := written_reads_back hs hn
  refine ⟨p, rfl, hs, hn, hread _, hlen, hcut _ (List.take_prefix 285 _) ?_⟩
  intro he
  have hl := congrArg List.length he
  rw [List.length_take, hlen] at hl
  exact absurd hl (by decide)

end Response

end Courier
