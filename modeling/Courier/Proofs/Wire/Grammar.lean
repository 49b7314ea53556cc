import Courier.Proofs.Wire.RequestRoundTrip

namespace Courier

namespace Bytes

/-- The `width` bytes from `start` on, or those of them that are there. -/
def slice (start width : Nat) (data : Bytes) : Bytes :=
  (data.drop start).take width

/-- The word at `i`, low byte first. A byte that is not there counts as zero. -/
def word16At (i : Nat) (data : Bytes) : UInt16 :=
  word16 (data.getD i 0) (data.getD (i + 1) 0)

/-- The word at `i`, low byte first. A byte that is not there counts as zero. -/
def word32At (i : Nat) (data : Bytes) : UInt32 :=
  word32 (data.getD i 0) (data.getD (i + 1) 0) (data.getD (i + 2) 0) (data.getD (i + 3) 0)

variable {data other : Bytes} {start width : Nat}

theorem length_slice : (slice start width data).length = min width (data.length - start) := by
  rw [slice, List.length_take, List.length_drop]

theorem getD_slice {i : Nat} (h : i < width) :
    (slice start width data).getD i 0 = data.getD (start + i) 0 := by
  simp only [slice, List.getD_eq_getElem?_getD, List.getElem?_take, h, if_true, List.getElem?_drop]

/-- What lies within a part is found in it. -/
theorem slice_slice {i n : Nat} (h : i + n ≤ width) :
    slice i n (slice start width data) = slice (start + i) n data := by
  rw [slice, slice, slice, List.drop_take, List.drop_drop, List.take_take,
    Nat.min_eq_left (by omega)]

theorem slice_congr {i n : Nat} (hs : slice start width other = slice start width data)
    (h : i + n ≤ width) : slice (start + i) n other = slice (start + i) n data := by
  rw [← slice_slice h, hs, slice_slice h]

theorem word16At_congr (hs : slice start 2 other = slice start 2 data) :
    word16At start other = word16At start data := by
  have hbyte (i : Nat) (hi : i < 2) : other.getD (start + i) 0 = data.getD (start + i) 0 := by
    rw [← getD_slice hi, hs, getD_slice hi]
  rw [word16At, word16At, hbyte 1 (by omega), ← Nat.add_zero start, hbyte 0 (by omega)]

theorem word32At_congr (hs : slice start width other = slice start width data) (h : 4 ≤ width) :
    word32At start other = word32At start data := by
  have hbyte (i : Nat) (hi : i < 4) : other.getD (start + i) 0 = data.getD (start + i) 0 := by
    rw [← getD_slice (Nat.lt_of_lt_of_le hi h), hs, getD_slice (Nat.lt_of_lt_of_le hi h)]
  rw [word32At, word32At, hbyte 1 (by omega), hbyte 2 (by omega), hbyte 3 (by omega),
    ← Nat.add_zero start, hbyte 0 (by omega)]

end Bytes

/-- A four-byte field that is read has the word at its place. -/
theorem Wire.fieldWord_take {data : Bytes} {i : Nat} (h : 4 ≤ (data.drop i).length) :
    fieldWord ⟨(data.drop i).take 4, List.length_take_of_le h⟩ = data.word32At i := by
  have hbyte (n : Nat) : data.getD (i + n) 0 = (data.drop i).getD n 0 := by
    simp only [List.getD_eq_getElem?_getD, List.getElem?_drop]
  have hfirst : data.getD i 0 = (data.drop i).getD 0 0 := hbyte 0
  rw [Bytes.word32At, hfirst, hbyte 1, hbyte 2, hbyte 3]
  generalize data.drop i = rest at h
  match rest, h with
  | _ :: _ :: _ :: _ :: _, _ => rfl

theorem RequestCode.value_injective {c c' : RequestCode} (h : c'.value = c.value) : c' = c := by
  have hv := ofValue?_value c'
  rw [h, ofValue?_value] at hv
  exact (Option.some.inj hv).symm

/-- The codes of requests are the numbers from 1100 to 1106. -/
theorem RequestCode.exists_value_iff {n : UInt16} :
    (∃ c : RequestCode, c.value = n) ↔ 1100 ≤ n.toNat ∧ n.toNat ≤ 1106 := by
  constructor
  · rintro ⟨c, rfl⟩
    cases c <;> decide
  · rintro ⟨hlow, hhigh⟩
    have hn : n.toNat = 1100 ∨ n.toNat = 1101 ∨ n.toNat = 1102 ∨ n.toNat = 1103 ∨
        n.toNat = 1104 ∨ n.toNat = 1105 ∨ n.toNat = 1106 := by
      omega
    obtain h | h | h | h | h | h | h := hn
    · exact ⟨.registration, UInt16.toNat_inj.mp h.symm⟩
    · exact ⟨.sendPublicKey, UInt16.toNat_inj.mp h.symm⟩
    · exact ⟨.reconnect, UInt16.toNat_inj.mp h.symm⟩
    · exact ⟨.sendFile, UInt16.toNat_inj.mp h.symm⟩
    · exact ⟨.validCrc, UInt16.toNat_inj.mp h.symm⟩
    · exact ⟨.invalidCrc, UInt16.toNat_inj.mp h.symm⟩
    · exact ⟨.finalInvalidCrc, UInt16.toNat_inj.mp h.symm⟩

/-- A header that is there in full has its identity and its code at their places. -/
theorem RequestHeader.decode_of_le {data : Bytes} (h : 23 ≤ data.length) :
    ∃ header, decode data = .ok header ∧ header.id.bytes = data.slice 0 16 ∧
      header.code = data.word16At 17 := by
  rw [decode, dif_pos h]
  refine ⟨_, rfl, rfl, ?_⟩
  rw [Bytes.word16At, List.getD_eq_getElem?_getD, List.getD_eq_getElem?_getD,
    List.getElem?_eq_getElem (by omega), List.getElem?_eq_getElem (by omega)]
  rfl

namespace Request

/-- The widths of the groups of fields that follow the header of a request with this code. -/
def widths (data : Bytes) : RequestCode → List Nat
  | .registration | .reconnect | .validCrc | .invalidCrc | .finalInvalidCrc => [255]
  | .sendPublicKey => [255, 160]
  | .sendFile => [259, (data.word32At 23).toNat]

/-- The first group that does not fit into what is left of `available` bytes for it, with the bytes
that are left. -/
def shortage : (widths : List Nat) → (available : Nat) → Option (Nat × Nat)
  | [], _ => none
  | width :: widths, available =>
    if available < width then some (width, available) else shortage widths (available - width)

/-- The bytes that the groups take together. -/
def layoutSize (data : Bytes) : RequestCode → Nat
  | .registration | .reconnect | .validCrc | .invalidCrc | .finalInvalidCrc => 255
  | .sendPublicKey => 415
  | .sendFile => 259 + (data.word32At 23).toNat

theorem shortage_eq_none_iff {data : Bytes} {code : RequestCode} {available : Nat} :
    shortage (widths data code) available = none ↔ layoutSize data code ≤ available := by
  cases code with
  | registration | reconnect | validCrc | invalidCrc | finalInvalidCrc =>
    simp [widths, shortage, layoutSize]
  | sendPublicKey =>
    simp only [widths, shortage, layoutSize]
    split <;> simp <;> omega
  | sendFile =>
    simp only [widths, shortage, layoutSize]
    split <;> simp <;> omega

/-- The fields of the request are what stands at their places in the bytes. -/
def StandsIn (data : Bytes) : Request → Prop
  | .registration name => name = .ofWire (data.slice 23 255)
  | .sendPublicKey id name key =>
    id.bytes = data.slice 0 16 ∧ name = .ofWire (data.slice 23 255) ∧
      key.bytes = data.slice 278 160
  | .reconnect id name => id.bytes = data.slice 0 16 ∧ name = .ofWire (data.slice 23 255)
  | .sendFile id file content =>
    id.bytes = data.slice 0 16 ∧ file = .ofWire (data.slice 27 255) ∧
      content = data.slice 282 (data.word32At 23).toNat
  | .verdict _ id file => id.bytes = data.slice 0 16 ∧ file = .ofWire (data.slice 23 255)

variable {data other : Bytes} {code : RequestCode} {r : Request}

/-- Bytes hold one request at most for each code. -/
theorem StandsIn.unique {r' : Request} (h : r.StandsIn data) (h' : r'.StandsIn data)
    (hc : r'.code = r.code) : r' = r := by
  cases r with
  | registration name =>
    cases r' with
    | registration name' => rw [h, h']
    | verdict v id file => cases v <;> cases hc
    | _ => cases hc
  | sendPublicKey id name key =>
    cases r' with
    | sendPublicKey id' name' key' =>
      obtain ⟨hid, rfl, hkey⟩ := h
      obtain ⟨hid', rfl, hkey'⟩ := h'
      rw [ClientId.ext (hid'.trans hid.symm), PublicKey.ext (hkey'.trans hkey.symm)]
    | verdict v id file => cases v <;> cases hc
    | _ => cases hc
  | reconnect id name =>
    cases r' with
    | reconnect id' name' =>
      obtain ⟨hid, rfl⟩ := h
      obtain ⟨hid', rfl⟩ := h'
      rw [ClientId.ext (hid'.trans hid.symm)]
    | verdict v id file => cases v <;> cases hc
    | _ => cases hc
  | sendFile id file content =>
    cases r' with
    | sendFile id' file' content' =>
      obtain ⟨hid, rfl, rfl⟩ := h
      obtain ⟨hid', rfl, rfl⟩ := h'
      rw [ClientId.ext (hid'.trans hid.symm)]
    | verdict v id file => cases v <;> cases hc
    | _ => cases hc
  | verdict v id file =>
    cases r' with
    | verdict v' id' file' =>
      obtain ⟨hid, rfl⟩ := h
      obtain ⟨hid', rfl⟩ := h'
      have hv : v' = v := by cases v <;> cases v' <;> first | rfl | cases hc
      rw [ClientId.ext (hid'.trans hid.symm), hv]
    | _ => cases v <;> cases hc

section Payload

variable {id : ClientId}

theorem length_drop_header : (data.drop 23).length = data.length - 23 :=
  List.length_drop

theorem take_name (h : 255 ≤ data.length - 23) :
    Name.take (data.drop 23) = .ok (.ofWire (data.slice 23 255), data.drop 278) := by
  rw [Name.take_eq (by rw [length_drop_header]; exact h), List.drop_drop]
  rfl

/-- With its name there, the payload of a public key comes down to the key. -/
theorem decodePayload_sendPublicKey (h : 255 ≤ data.length - 23) :
    decodePayload .sendPublicKey id (data.drop 23) = do
      let (key, _) ← PublicKey.take (data.drop 278)
      return .sendPublicKey id (.ofWire (data.slice 23 255)) key := by
  rw [decodePayload, take_name h, ok_bind]

/-- With size and name there, the payload of an upload comes down to the content. -/
theorem decodePayload_sendFile (h : 259 ≤ data.length - 23) :
    decodePayload .sendFile id (data.drop 23) = do
      Wire.ensure (data.word32At 23).toNat (data.drop 282)
      return .sendFile id (.ofWire (data.slice 27 255))
        (data.slice 282 (data.word32At 23).toNat) := by
  have hhead : 259 ≤ (data.drop 23).length := by
    rw [length_drop_header]
    exact h
  have hword : 4 ≤ (data.drop 23).length := by omega
  have hname : 255 ≤ ((data.drop 23).drop 4).length := by
    rw [List.length_drop]
    omega
  rw [decodePayload, uploadHead, Wire.ensure_of_le hhead, ok_bind, Wire.takeField_eq hword, ok_bind]
  dsimp only
  rw [Name.take_eq hname, ok_bind]
  dsimp only
  simp only [Wire.fieldWord_take hword, List.drop_drop]
  rfl

/-- A first group that does not fit is told with all that there is. -/
theorem shortage_first {width need available : Nat} {more : List Nat}
    (hlt : data.length - 23 < width)
    (h : shortage (width :: more) (data.length - 23) = some (need, available)) :
    need = width ∧ available = (data.drop 23).length := by
  rw [shortage, if_pos hlt] at h
  cases h
  exact ⟨rfl, length_drop_header.symm⟩

/-- A second group that does not fit is told with what the first has left. -/
theorem shortage_second {first width need available : Nat} (hle : first ≤ data.length - 23)
    (h : shortage [first, width] (data.length - 23) = some (need, available)) :
    need = width ∧ available = (data.drop (23 + first)).length ∧
      (data.drop (23 + first)).length < width := by
  rw [shortage, if_neg (Nat.not_lt_of_le hle), shortage] at h
  rw [List.length_drop]
  split at h
  · rename_i hlt
    cases h
    omega
  · cases h

/-- A group that does not fit ends the reading of a payload, with what was left for the group. -/
theorem decodePayload_of_shortage {need available : Nat}
    (h : shortage (widths data code) (data.length - 23) = some (need, available)) :
    decodePayload code id (data.drop 23) = .error (.truncatedPayload need available) := by
  cases code with
  | registration | reconnect | validCrc | invalidCrc | finalInvalidCrc =>
    have hlt : data.length - 23 < 255 := by
      refine Nat.lt_of_not_le fun hle => ?_
      rw [shortage_eq_none_iff.mpr hle] at h
      cases h
    obtain ⟨rfl, rfl⟩ := shortage_first hlt h
    rw [decodePayload, Name.take_of_lt (by rw [length_drop_header]; exact hlt), error_bind]
  | sendPublicKey =>
    by_cases hlt : data.length - 23 < 255
    · obtain ⟨rfl, rfl⟩ := shortage_first hlt h
      rw [decodePayload, Name.take_of_lt (by rw [length_drop_header]; exact hlt), error_bind]
    · have hle := Nat.le_of_not_lt hlt
      obtain ⟨rfl, rfl, hkey⟩ := shortage_second hle h
      rw [decodePayload_sendPublicKey hle, PublicKey.take_of_lt hkey, error_bind]
  | sendFile =>
    by_cases hlt : data.length - 23 < 259
    · obtain ⟨rfl, rfl⟩ := shortage_first hlt h
      rw [decodePayload, uploadHead, Wire.ensure_of_lt (by rw [length_drop_header]; exact hlt),
        error_bind]
    · have hle := Nat.le_of_not_lt hlt
      obtain ⟨rfl, rfl, hcontent⟩ := shortage_second hle h
      rw [decodePayload_sendFile hle, Wire.ensure_of_lt hcontent, error_bind]

/-- When all groups fit, the request under the code is read from its places. -/
theorem decodePayload_of_fits (hid : id.bytes = data.slice 0 16)
    (h : layoutSize data code ≤ data.length - 23) :
    ∃ r, decodePayload code id (data.drop 23) = .ok r ∧ r.code = code ∧ r.StandsIn data := by
  cases code with
  | registration =>
    rw [decodePayload, take_name h, ok_bind]
    exact ⟨_, rfl, rfl, rfl⟩
  | reconnect | validCrc | invalidCrc | finalInvalidCrc =>
    rw [decodePayload, take_name h, ok_bind]
    exact ⟨_, rfl, rfl, hid, rfl⟩
  | sendPublicKey =>
    rw [layoutSize] at h
    have hkey : 160 ≤ (data.drop 278).length := by
      rw [List.length_drop]
      omega
    rw [decodePayload_sendPublicKey (by omega), PublicKey.take_eq hkey, ok_bind]
    exact ⟨_, rfl, rfl, hid, rfl, rfl⟩
  | sendFile =>
    rw [layoutSize] at h
    have hcontent : (data.word32At 23).toNat ≤ (data.drop 282).length := by
      rw [List.length_drop]
      omega
    rw [decodePayload_sendFile (by omega), Wire.ensure_of_le hcontent, ok_bind]
    exact ⟨_, rfl, rfl, hid, rfl, rfl⟩

end Payload

/-- The layout that a request's code asks for is the same in all bytes that agree on it. -/
theorem layout_congr (hs : other.slice 23 (layoutSize data code) =
    data.slice 23 (layoutSize data code)) :
    widths other code = widths data code ∧ layoutSize other code = layoutSize data code := by
  cases code with
  | sendFile =>
    have hword : other.word32At 23 = data.word32At 23 :=
      Bytes.word32At_congr hs (by simp only [layoutSize]; omega)
    rw [widths, widths, layoutSize, layoutSize, hword]
    exact ⟨rfl, rfl⟩
  | _ => exact ⟨rfl, rfl⟩

/-- A request stands in all bytes that agree on the parts that its code asks for. -/
theorem StandsIn.congr (h : r.StandsIn data)
    (hid : r.code ≠ .registration → other.slice 0 16 = data.slice 0 16)
    (hs : other.slice 23 (layoutSize data r.code) = data.slice 23 (layoutSize data r.code)) :
    r.StandsIn other := by
  -- Every part that is read lies within the layout.
  have hpart {i n : Nat} (hn : i + n ≤ layoutSize data r.code) :
      other.slice (23 + i) n = data.slice (23 + i) n :=
    Bytes.slice_congr hs hn
  have hname (hn : 255 ≤ layoutSize data r.code) :
      Name.ofWire (data.slice 23 255) = Name.ofWire (other.slice 23 255) :=
    congrArg Name.ofWire (hpart (i := 0) (by omega)).symm
  cases r with
  | registration name => exact h.trans (hname (by simp [code, layoutSize]))
  | sendPublicKey id name key =>
    obtain ⟨h₁, h₂, h₃⟩ := h
    exact ⟨h₁.trans (hid (by simp [code])).symm, h₂.trans (hname (by simp [code, layoutSize])),
      h₃.trans (hpart (i := 255) (by simp [code, layoutSize])).symm⟩
  | reconnect id name =>
    obtain ⟨h₁, h₂⟩ := h
    exact ⟨h₁.trans (hid (by simp [code])).symm, h₂.trans (hname (by simp [code, layoutSize]))⟩
  | sendFile id file content =>
    obtain ⟨h₁, h₂, h₃⟩ := h
    have hsum : layoutSize data (sendFile id file content).code =
        259 + (data.word32At 23).toNat := by
      simp [code, layoutSize]
    have hword : other.word32At 23 = data.word32At 23 :=
      Bytes.word32At_congr hs (by omega)
    have hfile := (hpart (i := 4) (n := 255) (by omega)).symm
    refine ⟨h₁.trans (hid (by simp [code])).symm, h₂.trans (congrArg Name.ofWire hfile), ?_⟩
    rw [h₃, hword]
    exact (hpart (i := 259) (by omega)).symm
  | verdict v id file =>
    obtain ⟨h₁, h₂⟩ := h
    have hsum : layoutSize data (verdict v id file).code = 255 := by cases v <;> rfl
    exact ⟨h₁.trans (hid (by cases v <;> simp [code, Verdict.code])).symm, h₂.trans (hname (Nat.le_of_eq hsum.symm))⟩

section Header

/-- A known code decides how the rest is read. -/
theorem decode_of_code (hl : 23 ≤ data.length) (hc : code.value = data.word16At 17) :
    ∃ id : ClientId, id.bytes = data.slice 0 16 ∧
      decode data = decodePayload code id (data.drop 23) := by
  obtain ⟨header, hh, hid, hcode⟩ := RequestHeader.decode_of_le hl
  refine ⟨header.id, hid, ?_⟩
  rw [decode, hh, ok_bind, hcode, ← hc]
  simp only [RequestCode.ofValue?_value]
  rfl

theorem decode_of_no_code (hl : 23 ≤ data.length)
    (hc : ¬∃ code : RequestCode, code.value = data.word16At 17) :
    decode data = .error (.unknownRequestCode (data.word16At 17)) := by
  obtain ⟨header, hh, -, hcode⟩ := RequestHeader.decode_of_le hl
  have hnone : RequestCode.ofValue? (data.word16At 17) = none :=
    Option.eq_none_iff_forall_ne_some.mpr fun code hv =>
      hc ⟨code, RequestCode.value_of_ofValue? hv⟩
  rw [decode, hh, ok_bind, hcode]
  simp only [hnone]
  rfl

theorem decode_of_shortage {need available : Nat} (hl : 23 ≤ data.length)
    (hc : code.value = data.word16At 17)
    (hs : shortage (widths data code) (data.length - 23) = some (need, available)) :
    decode data = .error (.truncatedPayload need available) := by
  obtain ⟨id, -, hd⟩ := decode_of_code hl hc
  rw [hd, decodePayload_of_shortage hs]

theorem decode_of_fits (hl : 23 ≤ data.length) (hc : code.value = data.word16At 17)
    (hs : layoutSize data code ≤ data.length - 23) :
    ∃ r, decode data = .ok r ∧ r.code = code ∧ r.StandsIn data := by
  obtain ⟨id, hid, hd⟩ := decode_of_code hl hc
  rw [hd]
  exact decodePayload_of_fits hid hs

end Header

/-- The four ways in which reading bytes as a request ends. -/
theorem decode_cases (data : Bytes) :
    (data.length < 23 ∧ decode data = .error (.malformedHeader 23 data.length)) ∨
    (23 ≤ data.length ∧ (¬∃ code : RequestCode, code.value = data.word16At 17) ∧
      decode data = .error (.unknownRequestCode (data.word16At 17))) ∨
    (∃ (code : RequestCode) (need available : Nat), 23 ≤ data.length ∧
      code.value = data.word16At 17 ∧
      shortage (widths data code) (data.length - 23) = some (need, available) ∧
      decode data = .error (.truncatedPayload need available)) ∨
    (∃ r : Request, 23 ≤ data.length ∧ r.code.value = data.word16At 17 ∧
      layoutSize data r.code ≤ data.length - 23 ∧ r.StandsIn data ∧ decode data = .ok r) := by
  by_cases hl : data.length < 23
  · exact .inl ⟨hl, decode_of_lt hl⟩
  have hl : 23 ≤ data.length := by omega
  by_cases hc : ∃ code : RequestCode, code.value = data.word16At 17
  · obtain ⟨code, hc⟩ := hc
    cases hs : shortage (widths data code) (data.length - 23) with
    | some lack =>
      exact .inr (.inr (.inl ⟨code, lack.1, lack.2, hl, hc, hs, decode_of_shortage hl hc hs⟩))
    | none =>
      have hfits := shortage_eq_none_iff.mp hs
      obtain ⟨r, hr, rfl, hstands⟩ := decode_of_fits hl hc hfits
      exact .inr (.inr (.inr ⟨r, hl, hc, hfits, hstands, hr⟩))
  · exact .inr (.inl ⟨hl, hc, decode_of_no_code hl hc⟩)

theorem decode_eq_malformed_iff {need available : Nat} :
    decode data = .error (.malformedHeader need available) ↔
      data.length < 23 ∧ need = 23 ∧ available = data.length := by
  constructor
  · intro hd
    rcases decode_cases data with ⟨hl, h⟩ | ⟨-, -, h⟩ | ⟨_, _, _, -, -, -, h⟩ | ⟨_, -, -, -, -, h⟩ <;>
      rw [h] at hd <;> cases hd
    exact ⟨hl, rfl, rfl⟩
  · rintro ⟨hl, rfl, rfl⟩
    exact decode_of_lt hl

theorem decode_eq_unknown_iff {c : UInt16} :
    decode data = .error (.unknownRequestCode c) ↔
      23 ≤ data.length ∧ c = data.word16At 17 ∧ ¬(1100 ≤ c.toNat ∧ c.toNat ≤ 1106) := by
  constructor
  · intro hd
    rcases decode_cases data with ⟨-, h⟩ | ⟨hl, hc, h⟩ | ⟨_, _, _, -, -, -, h⟩ | ⟨_, -, -, -, -, h⟩ <;>
      rw [h] at hd <;> cases hd
    exact ⟨hl, rfl, mt RequestCode.exists_value_iff.mpr hc⟩
  · rintro ⟨hl, rfl, hc⟩
    exact decode_of_no_code hl (mt RequestCode.exists_value_iff.mp hc)

theorem decode_eq_truncated_iff {need available : Nat} :
    decode data = .error (.truncatedPayload need available) ↔
      23 ≤ data.length ∧ ∃ code : RequestCode, code.value = data.word16At 17 ∧
        shortage (widths data code) (data.length - 23) = some (need, available) := by
  constructor
  · intro hd
    rcases decode_cases data with ⟨-, h⟩ | ⟨-, -, h⟩ | ⟨code, _, _, hl, hc, hs, h⟩ |
        ⟨_, -, -, -, -, h⟩ <;>
      rw [h] at hd <;> cases hd
    exact ⟨hl, code, hc, hs⟩
  · rintro ⟨hl, code, hc, hs⟩
    exact decode_of_shortage hl hc hs

theorem decode_eq_ok_iff :
    decode data = .ok r ↔ 23 ≤ data.length ∧ r.code.value = data.word16At 17 ∧
      layoutSize data r.code ≤ data.length - 23 ∧ r.StandsIn data := by
  constructor
  · intro hd
    rcases decode_cases data with ⟨-, h⟩ | ⟨-, -, h⟩ | ⟨_, _, _, -, -, -, h⟩ |
        ⟨_, hl, hc, hs, hstands, h⟩ <;>
      rw [h] at hd <;> cases hd
    exact ⟨hl, hc, hs, hstands⟩
  · rintro ⟨hl, hc, hs, hstands⟩
    obtain ⟨r', hr, hcode, hstands'⟩ := decode_of_fits hl hc hs
    rw [hr, hstands.unique hstands' hcode]

/-- Only the code, the identity where there is one and the layout are read. -/
theorem decode_congr (hl : 23 ≤ data.length) (hl' : 23 ≤ other.length)
    (hcode : other.slice 17 2 = data.slice 17 2)
    (hsame : ∀ code : RequestCode, code.value = data.word16At 17 →
      (code ≠ .registration → other.slice 0 16 = data.slice 0 16) ∧
      other.slice 23 (layoutSize data code) = data.slice 23 (layoutSize data code)) :
    decode other = decode data := by
  have hword : other.word16At 17 = data.word16At 17 := Bytes.word16At_congr hcode
  -- A layout is there to the same extent in both.
  have hleft {code : RequestCode} (hc : code.value = data.word16At 17) :
      min (layoutSize data code) (other.length - 23) =
        min (layoutSize data code) (data.length - 23) := by
    have hlen := congrArg List.length (hsame code hc).2
    rwa [Bytes.length_slice, Bytes.length_slice] at hlen
  rcases decode_cases data with ⟨h, -⟩ | ⟨-, hc, h⟩ | ⟨code, _, _, -, hc, hs, h⟩ |
      ⟨r, -, hc, hs, hstands, h⟩
  · omega
  · rw [h, decode_of_no_code hl' (by rwa [hword]), hword]
  · have hlack : ¬layoutSize data code ≤ data.length - 23 := by
      intro hfits
      rw [shortage_eq_none_iff.mpr hfits] at hs
      cases hs
    have hlen : other.length - 23 = data.length - 23 := by
      have := hleft hc
      omega
    rw [h]
    refine decode_of_shortage hl' (hc.trans hword.symm) ?_
    rwa [(layout_congr (hsame code hc).2).1, hlen]
  · obtain ⟨hid, hslice⟩ := hsame r.code hc
    have hlen := hleft hc
    rw [h, decode_eq_ok_iff, (layout_congr hslice).2]
    exact ⟨hl', hc.trans hword.symm, by omega, hstands.congr hid hslice⟩

/-- The grammar of requests, for all bytes. Fewer than 23 bytes are no header; a code outside 1100 to
1106 is no request; a layout that is not there in full is refused for its first group that does not
fit, with the bytes that were left for that group; all other bytes read as the request that stands
in them, and in no other way. Besides the code, only the layout and, except in a registration, the
identity decide what is read. -/
theorem decode_grammar (data : Bytes) :
    (∀ need available, decode data = .error (.malformedHeader need available) ↔
      data.length < 23 ∧ need = 23 ∧ available = data.length) ∧
    (∀ c, decode data = .error (.unknownRequestCode c) ↔
      23 ≤ data.length ∧ c = data.word16At 17 ∧ ¬(1100 ≤ c.toNat ∧ c.toNat ≤ 1106)) ∧
    (∀ need available, decode data = .error (.truncatedPayload need available) ↔
      23 ≤ data.length ∧ ∃ code : RequestCode, code.value = data.word16At 17 ∧
        shortage (widths data code) (data.length - 23) = some (need, available)) ∧
    ((∃ need available, decode data = .error (.truncatedPayload need available)) ↔
      23 ≤ data.length ∧ ∃ code : RequestCode, code.value = data.word16At 17 ∧
        data.length - 23 < layoutSize data code) ∧
    (∀ r : Request, decode data = .ok r ↔ 23 ≤ data.length ∧ r.code.value = data.word16At 17 ∧
      layoutSize data r.code ≤ data.length - 23 ∧ r.StandsIn data) ∧
    ((∃ r, decode data = .ok r) ↔ 23 ≤ data.length ∧
      ∃ code : RequestCode, code.value = data.word16At 17 ∧
        layoutSize data code ≤ data.length - 23) ∧
    ∀ other : Bytes, 23 ≤ data.length → 23 ≤ other.length →
      other.slice 17 2 = data.slice 17 2 →
      (∀ code : RequestCode, code.value = data.word16At 17 →
        (code ≠ .registration → other.slice 0 16 = data.slice 0 16) ∧
        other.slice 23 (layoutSize data code) = data.slice 23 (layoutSize data code)) →
      decode other = decode data := by
  refine ⟨fun _ _ => decode_eq_malformed_iff, fun _ => decode_eq_unknown_iff,
    fun _ _ => decode_eq_truncated_iff, ⟨?_, ?_⟩, fun _ => decode_eq_ok_iff, ⟨?_, ?_⟩,
    fun _ => decode_congr⟩
  · rintro ⟨need, available, hd⟩
    obtain ⟨hl, code, hc, hs⟩ := decode_eq_truncated_iff.mp hd
    refine ⟨hl, code, hc, Nat.lt_of_not_le fun hfits => ?_⟩
    rw [shortage_eq_none_iff.mpr hfits] at hs
    cases hs
  · rintro ⟨hl, code, hc, hlt⟩
    have hs : shortage (widths data code) (data.length - 23) ≠ none :=
      mt shortage_eq_none_iff.mp (Nat.not_le_of_lt hlt)
    obtain ⟨lack, hs⟩ := Option.ne_none_iff_exists'.mp hs
    exact ⟨lack.1, lack.2, decode_of_shortage hl hc hs⟩
  · rintro ⟨r, hd⟩
    obtain ⟨hl, hc, hs, -⟩ := decode_eq_ok_iff.mp hd
    exact ⟨hl, r.code, hc, hs⟩
  · rintro ⟨hl, code, hc, hs⟩
    obtain ⟨r, hr, -, -⟩ := decode_of_fits hl hc hs
    exact ⟨r, hr⟩

/-- Two registrations of the same name, under other identities, versions and declared sizes, and one
of them with bytes after it. -/
theorem decode_grammar_registrations :
    ∃ data other : Bytes, other ≠ data ∧ 23 ≤ data.length ∧ 23 ≤ other.length ∧
      other.slice 17 2 = data.slice 17 2 ∧ other.slice 0 16 ≠ data.slice 0 16 ∧
      other.slice 23 255 = data.slice 23 255 ∧
      decode data = .ok (.registration ⟨"ab"⟩) ∧ decode other = .ok (.registration ⟨"ab"⟩) := by
  let field := Name.toWire ⟨"ab"⟩
  let data : Bytes := List.replicate 16 0 ++ [3, 76, 4, 255, 0, 0, 0] ++ field
  let other : Bytes := List.replicate 16 9 ++ [7, 76, 4, 1, 2, 3, 4] ++ field ++ [5, 6]
  obtain ⟨-, -, -, -, hok, -, hcongr⟩ := decode_grammar data
  have hcode : data.word16At 17 = RequestCode.registration.value := by rfl
  have hfield : other.slice 23 255 = data.slice 23 255 := by decide +kernel
  have hname : Name.ofWire (data.slice 23 255) = ⟨"ab"⟩ := by
    have hplace : data.slice 23 255 = field := by decide +kernel
    have htext : Name.ofText "ab" = .ok ⟨"ab"⟩ := by cbv
    rw [hplace]
    exact Name.reread_of_ofText htext
  have hread : decode data = .ok (.registration ⟨"ab"⟩) :=
    (hok _).mpr ⟨by decide +kernel, hcode.symm, by decide +kernel, hname.symm⟩
  refine ⟨data, other, by decide +kernel, by decide +kernel, by decide +kernel, by decide +kernel,
    by decide +kernel, hfield, hread, ?_⟩
  rw [← hread]
  refine hcongr other (by decide +kernel) (by decide +kernel) (by decide +kernel) ?_
  intro code hc
  obtain rfl := RequestCode.value_injective (hc.trans hcode)
  exact ⟨fun hne => absurd rfl hne, hfield⟩

end Request

end Courier
