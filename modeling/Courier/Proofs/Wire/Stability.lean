import Courier.Proofs.Wire.Name

namespace Courier.Name

open Text.Utf8 (encode decodeLossy replacement)

variable {n : Name}

theorem length_bytes (n : Name) : n.bytes.length = (encode n.text.toList).length :=
  rfl

theorem eq_of_toList {n' : Name} (h : n'.text.toList = n.text.toList) : n' = n :=
  Name.ext (String.toList_inj.mp h)

/-- Every field ends in a zero byte. -/
theorem getLast?_toWire (n : Name) : n.toWire.getLast? = some 0 := by
  have hl : (n.bytes.take maxLength).length ≤ 254 := List.length_take_le _ _
  rw [toWire, Bytes.padTo, List.getLast?_append, List.getLast?_replicate, if_neg]
  · rfl
  · rw [fieldSize]
    omega

/-- No name that was read has a NUL in it. -/
theorem nul_notMem_ofWire (field : Bytes) : '\x00' ∉ (ofWire field).text.toList := by
  rw [ofWire, String.toList_ofList]
  refine Text.Utf8.nul_notMem_decodeLossy fun b hb => ?_
  simpa using List.all_eq_true.mp List.all_takeWhile b hb

theorem toList_reread (h : '\x00' ∉ n.text.toList) :
    n.reread.text.toList = decodeLossy ((encode n.text.toList).take 254) := by
  rw [reread_eq h, String.toList_ofList]
  rfl

/-- A text that is too long for its field is read back up to a character's end, or with a mark for
the character that the field's end went through. -/
theorem reread_cases (h : '\x00' ∉ n.text.toList) (hl : 254 < n.bytes.length) :
    (encode n.reread.text.toList).length = 254 ∨
    ∃ front c back k, n.text.toList = front ++ c :: back ∧ 0 < k ∧
      k < (String.utf8EncodeChar c).length ∧ (encode front).length + k = 254 ∧
      n.reread.text.toList = front ++ [replacement] := by
  have hcut : ((encode n.text.toList).take 254).length = 254 :=
    List.length_take_of_le (Nat.le_of_lt hl)
  obtain ⟨front, -, ht⟩ | ⟨front, c, back, k, hn, h0, hk, ht⟩ :=
    Text.Utf8.take_encode n.text.toList 254
  · rw [toList_reread h, ht, Text.Utf8.decodeLossy_encode, ← ht]
    exact .inl hcut
  · refine .inr ⟨front, c, back, k, hn, h0, hk, ?_, ?_⟩
    · rw [ht, List.length_append, List.length_take_of_le (Nat.le_of_lt hk)] at hcut
      exact hcut
    · rw [toList_reread h, ht, Text.Utf8.decodeLossy_encode_append, decodeLossy,
        Text.Utf8.scan_take_encodeChar h0 hk]
      rfl

theorem encode_marked (front : List Char) :
    encode (front ++ [replacement]) = encode front ++ String.utf8EncodeChar replacement := by
  rw [Text.Utf8.encode_append, Text.Utf8.encode_cons, Text.Utf8.encode_nil, List.append_nil]

theorem length_encode_marked (front : List Char) :
    (encode (front ++ [replacement])).length = (encode front).length + 3 := by
  rw [encode_marked, List.length_append]
  rfl

/-- A field that ends within the mark at the end of a text keeps the text: the rest of the mark is
read as a mark again. -/
theorem decodeLossy_take_marked {front : List Char} (hlow : (encode front).length < 254)
    (hhigh : 254 < (encode front).length + 3) :
    decodeLossy ((encode (front ++ [replacement])).take 254) = front ++ [replacement] := by
  have hk : 254 - (encode front).length < (String.utf8EncodeChar replacement).length :=
    Nat.sub_lt_left_of_lt_add (Nat.le_of_lt hlow) hhigh
  rw [encode_marked, List.take_append, List.take_of_length_le (Nat.le_of_lt hlow),
    Text.Utf8.decodeLossy_encode_append, decodeLossy,
    Text.Utf8.scan_take_encodeChar (Nat.sub_pos_of_lt hlow) hk]
  rfl

/-- A field keeps a name when the text fits it, and also when all that it cuts is a mark at the
end. -/
theorem reread_eq_iff (h : '\x00' ∉ n.text.toList) :
    n.reread = n ↔ n.bytes.length ≤ 254 ∨
      ((n.bytes.length = 255 ∨ n.bytes.length = 256) ∧
        n.text.toList.getLast? = some '\uFFFD') := by
  have hb := length_bytes n
  constructor
  · intro he
    by_cases hl : n.bytes.length ≤ 254
    · exact .inl hl
    obtain hw | ⟨front, c, back, k, hn, h0, hk, hlen, hr⟩ := reread_cases h (by omega)
    · rw [he, ← hb] at hw
      omega
    · rw [he] at hr
      obtain ⟨rfl, rfl⟩ := List.cons_eq_cons.mp (List.append_cancel_left (hn.symm.trans hr))
      have hk : k < 3 := hk
      rw [hr, length_encode_marked] at hb
      refine .inr ⟨by omega, ?_⟩
      rw [hr, List.getLast?_append]
      rfl
  · rintro (hl | ⟨hl, hlast⟩)
    · exact reread_of_le h hl
    · obtain ⟨front, hn⟩ := List.getLast?_eq_some_iff.mp hlast
      have hn : n.text.toList = front ++ [replacement] := hn
      rw [hn, length_encode_marked] at hb
      apply eq_of_toList
      rw [toList_reread h, hn, decodeLossy_take_marked (by omega) (by omega)]

/-- What a field reads back as is kept by its own field. -/
theorem reread_reread (h : '\x00' ∉ n.text.toList) : n.reread.reread = n.reread := by
  have h' : '\x00' ∉ n.reread.text.toList := nul_notMem_ofWire _
  by_cases hl : n.bytes.length ≤ 254
  · rw [reread_of_le h hl, reread_of_le h hl]
  obtain hw | ⟨front, c, back, k, -, h0, hk, hlen, hr⟩ := reread_cases h (by omega)
  · exact reread_of_le h' (Nat.le_of_eq hw)
  · have hsize : k < 4 := by
      rw [String.length_utf8EncodeChar] at hk
      exact Nat.lt_of_lt_of_le hk c.utf8Size_le_four
    have hb := length_bytes n.reread
    rw [hr, length_encode_marked] at hb
    have hlast : n.reread.text.toList.getLast? = some replacement := by
      rw [hr, List.getLast?_append]
      rfl
    apply (reread_eq_iff h').mpr
    by_cases hfits : n.reread.bytes.length ≤ 254
    · exact .inl hfits
    · exact .inr ⟨by omega, hlast⟩

/-- Bytes that are UTF-8 before their first zero are the text that is read from them. -/
theorem reread_ofWire_of_valid {field : Bytes}
    (h : ((field.take 254).takeWhile (· != 0)).toByteArray.IsValidUTF8) :
    (ofWire field).reread = ofWire field := by
  obtain ⟨cs, hcs⟩ := h
  have he : (field.take maxLength).takeWhile (· != 0) = encode cs := List.toByteArray_inj.mp hcs
  refine reread_of_le (nul_notMem_ofWire field) ?_
  have hlen : ((field.take maxLength).takeWhile (· != 0)).length ≤ maxLength :=
    Nat.le_trans (List.takeWhile_sublist _).length_le (List.length_take_le _ _)
  rw [length_bytes, ofWire, String.toList_ofList, he, Text.Utf8.decodeLossy_encode, ← he]
  exact hlen

/-- Names settle after they went over the wire once more. A name that is read has no NUL, its field
ends in a zero byte, and what that field reads back as stays as it is. The name itself stays when its
text fits, or when it is over by one or two bytes and a mark is the last of it; so it does for a field
that is UTF-8 before its first zero, and for a name that the client chose. -/
theorem ofWire_settles (field : Bytes) :
    '\x00' ∉ (ofWire field).text.toList ∧
    (ofWire field).toWire.getLast? = some 0 ∧
    (ofWire field).reread.reread = (ofWire field).reread ∧
    ((ofWire field).reread = ofWire field ↔ (ofWire field).bytes.length ≤ 254 ∨
      (((ofWire field).bytes.length = 255 ∨ (ofWire field).bytes.length = 256) ∧
        (ofWire field).text.toList.getLast? = some '\uFFFD')) ∧
    (((field.take 254).takeWhile (· != 0)).toByteArray.IsValidUTF8 →
      (ofWire field).reread = ofWire field) ∧
    ∀ text n, ofText text = .ok n → n.reread = n :=
  ⟨nul_notMem_ofWire field, getLast?_toWire _, reread_reread (nul_notMem_ofWire field),
    reread_eq_iff (nul_notMem_ofWire field), reread_ofWire_of_valid, fun _ _ => reread_of_ofText⟩

/-- A name with an accent, which stays, and a field of broken bytes, whose 254 marks do not. -/
theorem ofWire_settles_accented :
    let field := toWire ⟨"naïve"⟩
    let broken : Bytes := List.replicate 255 0xFF
    ((field.take 254).takeWhile (· != 0)).toByteArray.IsValidUTF8 ∧
    (ofWire field).reread = ofWire field ∧
    ofText "plain" = .ok ⟨"plain"⟩ ∧ (⟨"plain"⟩ : Name).reread = ⟨"plain"⟩ ∧
    (ofWire broken).bytes.length = 762 ∧ (ofWire broken).reread ≠ ofWire broken := by
  intro field broken
  obtain ⟨-, -, -, -, hvalid, hchosen⟩ := ofWire_settles field
  obtain ⟨-, -, -, hiff, -, -⟩ := ofWire_settles broken
  have hutf8 : ((field.take 254).takeWhile (· != 0)).toByteArray.IsValidUTF8 :=
    ⟨"naïve".toList, congrArg List.toByteArray (by decide +kernel)⟩
  have hplain : ofText "plain" = .ok ⟨"plain"⟩ := by cbv
  have hlong : (ofWire broken).bytes.length = 762 := by
    rw [length_bytes, ofWire, String.toList_ofList]
    decide +kernel
  refine ⟨hutf8, hvalid hutf8, hplain, hchosen _ _ hplain, hlong, ?_⟩
  rw [Ne, hiff, hlong]
  omega

end Courier.Name
