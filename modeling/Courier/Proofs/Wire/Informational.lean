import Courier.Proofs.Coupling
import Courier.Proofs.Wire.Agreement

namespace Courier

/-- How many bytes at the head of a payload are there for information only. -/
def ResponseCode.informationalSize : ResponseCode → Nat
  | .registrationSuccess | .registrationFailure | .serverError => 0
  | .keyExchange | .messageDelivered | .reconnectionAccepted | .reconnectionDenied => 16
  | .fileDelivered => 275

namespace ResponseHeader

/-- The places in a response with this header that are there for information only. -/
def Informs (h : ResponseHeader) (i : Nat) : Prop :=
  i = 0 ∨ size + h.payloadSize.toNat ≤ i ∨
    size ≤ i ∧ i < size + h.code?.elim 0 ResponseCode.informationalSize

theorem informs_lt {h : ResponseHeader} {i : Nat} (hi : i < size) : h.Informs i ↔ i = 0 := by
  unfold Informs
  omega

end ResponseHeader

/-- The payloads differ in no more than what is there for information only. -/
inductive ResponsePayload.Alike : ResponsePayload → ResponsePayload → Prop where
  | registrationSuccess (id : ClientId) : Alike (.registrationSuccess id) (.registrationSuccess id)
  | registrationFailure : Alike .registrationFailure .registrationFailure
  | keyExchange (id id' : ClientId) (key : Bytes) :
    Alike (.keyExchange id key) (.keyExchange id' key)
  | fileDelivered (id id' : ClientId) (contentSize contentSize' : UInt32) (file file' : Name)
      (checksum : UInt32) :
    Alike (.fileDelivered id contentSize file checksum)
      (.fileDelivered id' contentSize' file' checksum)
  | messageDelivered (id id' : ClientId) : Alike (.messageDelivered id) (.messageDelivered id')
  | reconnectionAccepted (id id' : ClientId) (key : Bytes) :
    Alike (.reconnectionAccepted id key) (.reconnectionAccepted id' key)
  | reconnectionDenied (id id' : ClientId) :
    Alike (.reconnectionDenied id) (.reconnectionDenied id')
  | serverError : Alike .serverError .serverError

namespace ResponsePayload

variable {data data' : Bytes}

/-- Of a report on an upload only the checksum is left when the rest is not minded. -/
theorem decodeAs_fileDelivered (h : 279 ≤ data.length) :
    ∃ id contentSize file, decodeAs .fileDelivered data =
      (Wire.takeField 4 (data.drop 275)).map fun r =>
        .fileDelivered id contentSize file (Wire.fieldWord r.1) := by
  obtain ⟨id, hid⟩ : ∃ id, ClientId.take data = .ok (id, data.drop 16) :=
    ClientId.take_of_le (by omega)
  obtain ⟨contentSize, hcontent⟩ := @Wire.takeField_of_le 4 (data.drop 16) (by
    rw [List.length_drop]
    omega)
  obtain ⟨file, hfile⟩ : ∃ file, Name.take ((data.drop 16).drop 4) =
      .ok (file, ((data.drop 16).drop 4).drop 255) :=
    Name.take_of_le (by
      rw [List.length_drop, List.length_drop]
      omega)
  refine ⟨id, Wire.fieldWord contentSize, file, ?_⟩
  rw [decodeAs, Wire.ensure_of_le h, ok_bind, hid, ok_bind]
  dsimp only
  rw [hcontent, ok_bind]
  dsimp only
  rw [hfile, ok_bind]
  dsimp only
  rw [List.drop_drop, List.drop_drop]
  cases Wire.takeField 4 (data.drop 275) <;> rfl

/-- What follows an identity is read alike. -/
theorem take_alike {f : ClientId → Bytes → ResponsePayload}
    (hf : ∀ id id' key, Alike (f id key) (f id' key)) (hl : data.length = data'.length)
    (hd : data.drop 16 = data'.drop 16) :
    Replies Alike (ClientId.take data >>= fun r => pure (f r.1 r.2))
      (ClientId.take data' >>= fun r => pure (f r.1 r.2)) := by
  by_cases h : data.length < 16
  · rw [ClientId.take_of_lt h, ClientId.take_of_lt (hl ▸ h), hl]
    exact .error
  · obtain ⟨id, hid⟩ := ClientId.take_of_le (Nat.le_of_not_lt h)
    obtain ⟨id', hid'⟩ := ClientId.take_of_le (hl ▸ Nat.le_of_not_lt h)
    rw [hid, hid', hd]
    exact .ok (hf id id' _)

theorem decodeAs_alike {code : ResponseCode} (hl : data.length = data'.length)
    (hd : data.drop code.informationalSize = data'.drop code.informationalSize) :
    Replies Alike (decodeAs code data) (decodeAs code data') := by
  cases code with
  | registrationFailure => exact .ok .registrationFailure
  | serverError => exact .ok .serverError
  | registrationSuccess =>
    rw [show data = data' from hd]
    cases h : decodeAs .registrationSuccess data' with
    | error e => exact .error
    | ok p =>
      obtain ⟨r, -, hp⟩ := bind_eq_ok.mp h
      cases hp
      exact .ok (.registrationSuccess r.1)
  | keyExchange => exact take_alike (f := .keyExchange) .keyExchange hl hd
  | messageDelivered =>
    exact take_alike (f := fun id _ => .messageDelivered id)
      (fun id id' _ => .messageDelivered id id') hl hd
  | reconnectionAccepted =>
    exact take_alike (f := .reconnectionAccepted) .reconnectionAccepted hl hd
  | reconnectionDenied =>
    exact take_alike (f := fun id _ => .reconnectionDenied id)
      (fun id id' _ => .reconnectionDenied id id') hl hd
  | fileDelivered =>
    by_cases h : data.length < 279
    · rw [decodeAs, decodeAs, Wire.ensure_of_lt h, Wire.ensure_of_lt (hl ▸ h), hl]
      exact .error
    · obtain ⟨id, contentSize, file, hp⟩ := decodeAs_fileDelivered (Nat.le_of_not_lt h)
      obtain ⟨id', contentSize', file', hp'⟩ := decodeAs_fileDelivered (hl ▸ Nat.le_of_not_lt h)
      rw [hp, hp', show data.drop 275 = data'.drop 275 from hd]
      cases Wire.takeField 4 (data'.drop 275) with
      | error e => exact .error
      | ok r => exact .ok (.fileDelivered id id' contentSize contentSize' file file' _)

end ResponsePayload

namespace Response

/-- The bytes are as many, and the same but for those that are there for information only. -/
structure Alike (s t : Bytes) : Prop where
  length_eq : s.length = t.length
  byte_eq : ∀ i, i ≠ 0 → (∀ h, ResponseHeader.decode s = .ok h → ¬h.Informs i) → s[i]? = t[i]?

variable {s t : Bytes}

/-- The headers differ in no more than the version. -/
theorem Alike.decode_header (h : Alike s t) :
    (∃ e, ResponseHeader.decode s = .error e ∧ ResponseHeader.decode t = .error e) ∨
      ∃ hd version, ResponseHeader.decode s = .ok hd ∧
        ResponseHeader.decode t = .ok { hd with version } := by
  have hbyte (i : Nat) (hi : i ≠ 0) (hlt : i < ResponseHeader.size) : s[i]? = t[i]? :=
    h.byte_eq i hi fun _ _ => by rwa [ResponseHeader.informs_lt hlt]
  have hl := h.length_eq
  match s, t with
  | v :: c₀ :: c₁ :: s₀ :: s₁ :: s₂ :: s₃ :: rest,
    v' :: c₀' :: c₁' :: s₀' :: s₁' :: s₂' :: s₃' :: rest' =>
    cases hbyte 1 (by decide) (by decide)
    cases hbyte 2 (by decide) (by decide)
    cases hbyte 3 (by decide) (by decide)
    cases hbyte 4 (by decide) (by decide)
    cases hbyte 5 (by decide) (by decide)
    cases hbyte 6 (by decide) (by decide)
    exact .inr ⟨_, v', rfl, rfl⟩
  | [], [] | [_], [_] | [_, _], [_, _] | [_, _, _], [_, _, _] | [_, _, _, _], [_, _, _, _]
  | [_, _, _, _, _], [_, _, _, _, _] | [_, _, _, _, _, _], [_, _, _, _, _, _] =>
    exact .inl ⟨_, rfl, rfl⟩

theorem Alike.take (h : Alike s t) (n : Nat) : Alike (s.take n) (t.take n) := by
  refine ⟨?_, fun i hi hinforms => ?_⟩
  · rw [List.length_take, List.length_take, h.length_eq]
  rw [List.getElem?_take, List.getElem?_take]
  split
  · rename_i hin
    refine h.byte_eq i hi fun hd hdec => ?_
    by_cases hn : ResponseHeader.size ≤ n
    · exact hinforms hd (by rw [ResponseHeader.decode_take hn, hdec])
    · rw [ResponseHeader.informs_lt (by omega)]
      exact hi
  · rfl

/-- What comes first is alike, wherever the bytes are cut. -/
theorem Alike.left {s' t' : Bytes} (h : Alike (s ++ s') (t ++ t')) (hl : s.length = t.length) :
    Alike s t := by
  have htake := h.take s.length
  rwa [List.take_left, hl, List.take_left] at htake

theorem Alike.body {hd : ResponseHeader} (h : Alike s t)
    (hdec : ResponseHeader.decode s = .ok hd) {code : ResponseCode} (hcode : hd.code? = some code) :
    (((s.drop 7).take hd.payloadSize.toNat).drop code.informationalSize) =
      (((t.drop 7).take hd.payloadSize.toNat).drop code.informationalSize) := by
  apply List.ext_getElem?
  intro i
  simp only [List.getElem?_drop, List.getElem?_take]
  split
  · refine h.byte_eq _ (by omega) fun hd' hdec' => ?_
    cases hdec.symm.trans hdec'
    unfold ResponseHeader.Informs
    rw [hcode]
    simp only [ResponseHeader.size, Option.elim_some]
    omega
  · rfl

theorem Alike.decodeBody {hd : ResponseHeader} (h : Alike s t)
    (hdec : ResponseHeader.decode s = .ok hd) (version : UInt8) :
    Replies ResponsePayload.Alike (decodeBody hd (s.drop ResponseHeader.size))
      (decodeBody { hd with version } (t.drop ResponseHeader.size)) := by
  have hl : (s.drop ResponseHeader.size).length = (t.drop ResponseHeader.size).length := by
    rw [List.length_drop, List.length_drop, h.length_eq]
  unfold Response.decodeBody
  by_cases hshort : (s.drop ResponseHeader.size).length < hd.payloadSize.toNat
  · rw [Wire.ensure_of_lt hshort, Wire.ensure_of_lt (hl ▸ hshort), hl]
    exact .error
  rw [Wire.ensure_of_le (Nat.le_of_not_lt hshort),
    Wire.ensure_of_le (hl ▸ Nat.le_of_not_lt hshort), ok_bind, ok_bind]
  unfold ResponsePayload.decode
  cases hcode : ResponseCode.ofValue? hd.code with
  | none => exact .error
  | some code =>
    apply ResponsePayload.decodeAs_alike
    · rw [List.length_take, List.length_take, hl]
    · exact h.body hdec hcode

/-- Responses alike are read alike. -/
theorem Alike.decode (h : Alike s t) :
    Replies (fun r r' => r.payload.Alike r'.payload) (decode s) (decode t) := by
  unfold Response.decode
  rcases h.decode_header with ⟨e, hs, ht⟩ | ⟨hd, version, hs, ht⟩
  · rw [hs, ht]
    exact .error
  · rw [hs, ht, ok_bind, ok_bind]
    have hbody := h.decodeBody hs version
    generalize Response.decodeBody hd _ = x at hbody
    generalize Response.decodeBody _ _ = y at hbody
    cases hbody with
    | ok hp => exact .ok hp
    | error => exact .error

/-- A response as it is written is alike to one with another version, other bytes at the places that
are there for information only, and other bytes after it. -/
theorem alike_of_parts {hd : ResponseHeader} {code : ResponseCode} (hcode : hd.code? = some code)
    {a a' b tail tail' : Bytes} (ha : a.length = code.informationalSize)
    (ha' : a'.length = code.informationalSize)
    (hb : code.informationalSize + b.length = hd.payloadSize.toNat)
    (ht : tail.length = tail'.length) (version : UInt8) :
    Alike (hd.encode ++ (a ++ b ++ tail))
      (({ hd with version } : ResponseHeader).encode ++ (a' ++ b ++ tail')) := by
  refine ⟨by simp [ha, ha', ht], fun i hi hinforms => ?_⟩
  have hnot := hinforms hd (ResponseHeader.decode_encode_append hd _)
  unfold ResponseHeader.Informs at hnot
  rw [hcode, ← hb] at hnot
  simp only [ResponseHeader.size, Option.elim_some] at hnot
  by_cases hhead : i < 7
  · obtain ⟨j, rfl⟩ := Nat.exists_eq_succ_of_ne_zero hi
    rw [List.getElem?_append_left hhead, List.getElem?_append_left hhead]
    rfl
  · obtain ⟨j, rfl⟩ : ∃ j, i = 7 + code.informationalSize + j :=
      Nat.exists_eq_add_of_le (by omega)
    have hdrop (l l' x : Bytes) (hl : l.length = 7)
        (hl' : l'.length = code.informationalSize) :
        (l ++ (l' ++ b ++ x))[7 + code.informationalSize + j]? = b[j]? := by
      rw [List.append_assoc, ← List.append_assoc, List.getElem?_append_right (by simp; omega),
        List.getElem?_append_left (by simp; omega)]
      congr 1
      simp
      omega
    rw [hdrop _ _ _ rfl ha, hdrop _ _ _ rfl ha']

/-- Payloads that differ in no more than what is there for information only are written alike. -/
theorem alike_of_payloads {p p' : ResponsePayload} (h : p.Alike p') (hsize : p.size < UInt32.size)
    {tail tail' : Bytes} (ht : tail.length = tail'.length) (version : UInt8) :
    Alike ((ofPayload p).encode ++ tail)
      (({ (ofPayload p').header with version } : ResponseHeader).encode ++ p'.encode ++ tail') := by
  have hdeclared : (UInt32.ofNat (min p.size (UInt32.size - 1))).toNat = p.size := by
    rw [UInt32.toNat_ofNat', Nat.min_eq_left (by omega), Nat.mod_eq_of_lt hsize]
  have hcode : (ofPayload p).header.code? = some p.code := ResponseCode.ofValue?_value _
  have hparts (a a' b : Bytes) (ha : a.length = p.code.informationalSize)
      (ha' : a'.length = p.code.informationalSize)
      (hb : p.code.informationalSize + b.length = p.size) (hp : p.encode = a ++ b)
      (hp' : p'.encode = a' ++ b) :
      Alike ((ofPayload p).encode ++ tail) (({ (ofPayload p').header with version } :
        ResponseHeader).encode ++ p'.encode ++ tail') := by
    have hheader : ({ (ofPayload p').header with version } : ResponseHeader) =
        { (ofPayload p).header with version } := by
      have hsame : p.code = p'.code ∧ p.size = p'.size := by
        cases h <;> exact ⟨rfl, rfl⟩
      rw [ofPayload, ofPayload, hsame.1, hsame.2]
    have hpayload : (ofPayload p).payload.encode = a ++ b := hp
    have halike := alike_of_parts hcode ha ha' (hb.trans hdeclared.symm) ht version
    rw [encode, hheader, hpayload, hp']
    simp only [List.append_assoc] at halike ⊢
    exact halike
  cases h with
  | registrationSuccess id =>
    have hid : ResponseCode.registrationSuccess.informationalSize + id.bytes.length = 16 := by
      rw [id.length_bytes]
      rfl
    exact hparts [] [] id.bytes rfl rfl hid rfl rfl
  | registrationFailure => exact hparts [] [] [] rfl rfl rfl rfl rfl
  | serverError => exact hparts [] [] [] rfl rfl rfl rfl rfl
  | keyExchange id id' key =>
    exact hparts id.bytes id'.bytes key id.length_bytes id'.length_bytes rfl rfl rfl
  | reconnectionAccepted id id' key =>
    exact hparts id.bytes id'.bytes key id.length_bytes id'.length_bytes rfl rfl rfl
  | messageDelivered id id' =>
    exact hparts id.bytes id'.bytes [] id.length_bytes id'.length_bytes rfl
      (List.append_nil _).symm (List.append_nil _).symm
  | reconnectionDenied id id' =>
    exact hparts id.bytes id'.bytes [] id.length_bytes id'.length_bytes rfl
      (List.append_nil _).symm (List.append_nil _).symm
  | fileDelivered id id' contentSize contentSize' file file' checksum =>
    refine hparts (id.bytes ++ (Bytes.ofWord32 contentSize ++ file.toWire))
      (id'.bytes ++ (Bytes.ofWord32 contentSize' ++ file'.toWire)) (Bytes.ofWord32 checksum) ?_ ?_
      rfl ?_ ?_
    · simp [id.length_bytes, ResponsePayload.code, ResponseCode.informationalSize, Name.fieldSize]
    · simp [id'.length_bytes, ResponsePayload.code, ResponseCode.informationalSize, Name.fieldSize]
    · simp [ResponsePayload.encode]
    · simp [ResponsePayload.encode]

end Response

/-- What an event says apart from what is there for information only. -/
def Event.essence? : Event → Option Event
  | .versionDiffers _ _ | .echoDiffers _ _ => none
  | .transferConfirmed _ attempts checksum => some (.transferConfirmed .empty attempts checksum)
  | e => some e

namespace ResponseHeader

theorem warnings_essence (h : ResponseHeader) (expected : ResponseCode) :
    (h.warnings expected).filterMap Event.essence? = [] := by
  unfold warnings
  split <;> rfl

/-- Headers that differ in their versions are judged alike, but for a report on the version. -/
theorem announced_alike {s t : Bytes} (h : Response.Alike s t) (expected : ResponseCode) :
    (announced expected s).2 = (announced expected t).2 ∧
      (announced expected s).1.filterMap Event.essence? = [] ∧
      (announced expected t).1.filterMap Event.essence? = [] := by
  unfold announced
  rcases h.decode_header with ⟨e, hs, ht⟩ | ⟨hd, version, hs, ht⟩
  · rw [hs, ht]
    exact ⟨rfl, rfl, rfl⟩
  · rw [hs, ht]
    exact ⟨rfl, warnings_essence _ _, warnings_essence _ _⟩

end ResponseHeader

end Courier
