import Courier.Proofs.Wire.Grammar

namespace Courier.Request

variable {data : Bytes} {r : Request}

/-- The most content with which the size of an upload fits a header. -/
def maxContent : Nat := 4294967036

/-- Of an upload that is read there is as much content as its size field says. -/
theorem contentSize_of_decode (h : decode data = .ok r) (hc : r.code = .sendFile) :
    r.contentSize = (data.word32At 23).toNat := by
  obtain ⟨hl, -, hfits, hstands⟩ := decode_eq_ok_iff.mp h
  rw [hc, layoutSize] at hfits
  cases r with
  | sendFile id file content =>
    obtain ⟨-, -, rfl⟩ := hstands
    rw [contentSize, Bytes.length_slice]
    omega
  | verdict v id file => cases v <;> cases hc
  | _ => cases hc

theorem isOversized_iff : r.IsOversized ↔ r.code = .sendFile ∧ maxContent < r.contentSize := by
  cases r with
  | sendFile id file content => simp [IsOversized, code, contentSize, maxContent, uploadHead, UInt32.size]
  | verdict v id file => cases v <;> simp [IsOversized, code, Verdict.code]
  | _ => simp [IsOversized, code]

/-- Why bytes do not pass, read as a request and written again: the first 27 of them tell, with how
many they are. -/
def fault? (head : Bytes) (length : Nat) : Option TransferError :=
  if length < 23 then some (.malformedHeader 23 length)
  else
    match RequestCode.ofValue? (head.word16At 17) with
    | none => some (.unknownRequestCode (head.word16At 17))
    | some code =>
      match shortage (widths head code) (length - 23) with
      | some (need, available) => some (.truncatedPayload need available)
      | none =>
        if code = .sendFile ∧ maxContent < (head.word32At 23).toNat then
          some (.oversizedContent (head.word32At 23).toNat)
        else none

theorem isOversized_of_decode (h : decode data = .ok r) :
    r.IsOversized ↔ r.code = .sendFile ∧ maxContent < (data.word32At 23).toNat := by
  rw [isOversized_iff]
  constructor
  · rintro ⟨hc, hlt⟩
    rw [contentSize_of_decode h hc] at hlt
    exact ⟨hc, hlt⟩
  · rintro ⟨hc, hlt⟩
    rw [contentSize_of_decode h hc]
    exact ⟨hc, hlt⟩

/-- Bytes pass just if nothing is found wrong with them, and fail for what is. -/
theorem fault?_eq (data : Bytes) :
    fault? (data.slice 0 27) data.length =
      match decode data >>= encode with
      | .ok _ => none
      | .error e => some e := by
  have hpart (i n : Nat) (hn : i + n ≤ 27) : (data.slice 0 27).slice i n = data.slice i n := by
    rw [Bytes.slice_slice hn, Nat.zero_add]
  have hcode : (data.slice 0 27).word16At 17 = data.word16At 17 :=
    Bytes.word16At_congr (hpart 17 2 (by decide))
  have hsize : (data.slice 0 27).word32At 23 = data.word32At 23 :=
    Bytes.word32At_congr (hpart 23 4 (by decide)) (Nat.le_refl 4)
  have hwidths (code : RequestCode) : widths (data.slice 0 27) code = widths data code := by
    cases code <;> simp only [widths, hsize]
  unfold fault?
  rw [hcode, hsize]
  rcases decode_cases data with ⟨hl, h⟩ | ⟨hl, hc, h⟩ | ⟨code, need, available, hl, hc, hs, h⟩ |
    ⟨r, hl, hc, hfits, -, h⟩
  · rw [h, error_bind, if_pos hl]
  · have hnone : RequestCode.ofValue? (data.word16At 17) = none :=
      Option.eq_none_iff_forall_ne_some.mpr fun code hv =>
        hc ⟨code, RequestCode.value_of_ofValue? hv⟩
    rw [h, error_bind, if_neg (Nat.not_lt_of_le hl), hnone]
  · rw [h, error_bind, if_neg (Nat.not_lt_of_le hl), ← hc, RequestCode.ofValue?_value]
    simp only [hwidths, hs]
  · rw [h, ok_bind, if_neg (Nat.not_lt_of_le hl), ← hc, RequestCode.ofValue?_value]
    simp only [hwidths, shortage_eq_none_iff.mpr hfits]
    by_cases ho : r.IsOversized
    · have hover := (isOversized_of_decode h).mp ho
      rw [if_pos hover, encode_of_isOversized ho, contentSize_of_decode h hover.1]
    · rw [if_neg (mt (isOversized_of_decode h).mpr ho), encode_of_not_isOversized ho]

/-- A request that was read is written again, with the size that its header declares, just if it is
no upload of more than 4294967036 bytes. Such an upload can be read, but not be written. -/
theorem encode_of_decode (h : decode data = .ok r) :
    ((∃ bytes, r.encode = .ok bytes) ↔
      (r.code = .sendFile → (data.word32At 23).toNat ≤ 4294967036)) ∧
    (∀ bytes, r.encode = .ok bytes → bytes.length = 23 + r.payloadSize ∧
      ∃ header, RequestHeader.decode bytes = .ok header ∧
        header.payloadSize.toNat = r.payloadSize) ∧
    (r.code = .sendFile → 4294967036 < (data.word32At 23).toNat →
      r.encode = .error (.oversizedContent (data.word32At 23).toNat)) := by
  have hover := isOversized_of_decode h
  refine ⟨?_, ?_, ?_⟩
  · constructor
    · rintro ⟨bytes, hb⟩ hc
      have hfits := (encode_eq_ok_iff.mp hb).1
      exact Nat.le_of_not_lt fun hlt => hfits (hover.mpr ⟨hc, hlt⟩)
    · intro hle
      have hfits : ¬r.IsOversized := by
        intro ho
        obtain ⟨hc, hlt⟩ := hover.mp ho
        exact Nat.not_lt_of_le (hle hc) hlt
      exact ⟨_, encode_of_not_isOversized hfits⟩
  · intro bytes hb
    obtain ⟨hfits, rfl⟩ := encode_eq_ok_iff.mp hb
    exact ⟨length_written r, r.stamp, RequestHeader.decode_encode_append _ _,
      toNat_stamp_payloadSize hfits⟩
  · intro hc hlt
    rw [encode_of_isOversized (hover.mpr ⟨hc, hlt⟩), contentSize_of_decode h hc]

/-- Every upload is read back whose size field holds the length of its content. -/
theorem decode_upload {content : Bytes} (h : content.length < UInt32.size) (id : ClientId)
    (file : Name) (tail : Bytes) :
    decode ((sendFile id file content).stamp.encode ++
      ((sendFile id file content).payload ++ tail)) = .ok (.sendFile id file.reread content) := by
  rw [decode_stamp_append]
  exact decodePayload_upload h id file tail

/-- An upload of two bytes with one more byte after it. -/
theorem encode_of_decode_notes :
    ∃ data r, decode data = .ok r ∧ r = sendFile .unassigned ⟨"a"⟩ [1, 2] ∧
      ∃ bytes, r.encode = .ok bytes ∧ bytes.length = 284 := by
  let upload := sendFile .unassigned ⟨"a"⟩ [1, 2]
  have hname : Name.ofText "a" = .ok ⟨"a"⟩ := by cbv
  have hread : decode (upload.stamp.encode ++ (upload.payload ++ [9])) = .ok upload := by
    rw [decode_upload (by decide), Name.reread_of_ofText hname]
  obtain ⟨hiff, hlen, -⟩ := encode_of_decode hread
  have hsize : (Bytes.word32At 23 (upload.stamp.encode ++ (upload.payload ++ [9]))).toNat = 2 :=
    (contentSize_of_decode hread rfl).symm
  obtain ⟨bytes, hb⟩ := hiff.mpr fun _ => by rw [hsize]; decide
  exact ⟨_, upload, hread, rfl, bytes, hb, (hlen bytes hb).1⟩

/-- One byte of content too many for a header: the upload is read and cannot be written. -/
theorem read_but_not_written :
    ∃ data r, r = sendFile .unassigned ⟨"a"⟩ (List.replicate 4294967037 0) ∧
      data = r.stamp.encode ++ r.payload ∧ decode data = .ok r ∧
      r.encode = .error (.oversizedContent 4294967037) ∧ ¬∃ bytes, r.encode = .ok bytes := by
  have hlen : (List.replicate 4294967037 (0 : UInt8)).length = 4294967037 := List.length_replicate
  generalize hcontent : List.replicate 4294967037 (0 : UInt8) = content at hlen
  have hfits : content.length < UInt32.size := by
    rw [hlen]
    decide
  have hname : Name.ofText "a" = .ok ⟨"a"⟩ := by cbv
  have hread := decode_upload hfits .unassigned ⟨"a"⟩ []
  rw [Name.reread_of_ofText hname, List.append_nil] at hread
  have hover : (sendFile .unassigned ⟨"a"⟩ content).IsOversized :=
    isOversized_iff.mpr ⟨rfl, by rw [contentSize, hlen]; decide⟩
  have hrefused := encode_of_isOversized hover
  rw [contentSize, hlen] at hrefused
  refine ⟨_, sendFile .unassigned ⟨"a"⟩ content, rfl, rfl, hread, hrefused, ?_⟩
  rintro ⟨bytes, hb⟩
  rw [hrefused] at hb
  cases hb

end Courier.Request
