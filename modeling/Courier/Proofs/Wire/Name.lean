import Courier.Proofs.Text.Decoding
import Courier.Wire.Name

namespace Courier

namespace Name

theorem isPrintable_iff {c : Char} : isPrintable c ↔ 32 ≤ c.val.toNat ∧ c.val.toNat ≤ 126 := by
  simp only [isPrintable, decide_eq_true_eq]
  exact Iff.rfl

theorem isPrintable_range {c : Char} (h : isPrintable c) :
    0 < c.val.toNat ∧ c.val.toNat < 0x80 := by
  have hrange := isPrintable_iff.mp h
  omega

/-- A text without NUL comes back from its field as the field's bytes read. -/
theorem reread_eq {n : Name} (h : '\x00' ∉ n.text.toList) :
    n.reread = ⟨String.ofList (Text.Utf8.decodeLossy (n.bytes.take maxLength))⟩ := by
  have hw : (n.toWire.take maxLength).takeWhile (· != 0) = n.bytes.take maxLength := by
    rw [toWire, Bytes.padTo, List.take_append, List.take_take, Nat.min_self,
      List.takeWhile_append_of_pos]
    · simp [List.take_replicate]
    · intro b hb
      simpa using Text.Utf8.ne_zero_of_mem_encode h (List.mem_of_mem_take hb)
  rw [reread, ofWire, hw]

/-- A field keeps a text without NUL that is no longer than 254 bytes. -/
theorem reread_of_le {n : Name} (h : '\x00' ∉ n.text.toList) (hl : n.bytes.length ≤ maxLength) :
    n.reread = n := by
  rw [reread_eq h, List.take_of_length_le hl, bytes, Text.Utf8.bytes, Text.Utf8.decodeLossy_encode,
    String.ofList_toList]

/-- What is chosen as a name is taken as it is. -/
theorem ofText_eq_ok_iff {text : String} {n : Name} : ofText text = .ok n ↔
    (Text.Utf8.bytes text).length ≤ 254 ∧ (∀ c ∈ text.toList, isPrintable c) ∧ n = ⟨text⟩ := by
  rw [← List.all_eq_true, eq_comm (a := n)]
  unfold ofText
  by_cases hl : (Text.Utf8.bytes text).length > maxLength
  · rw [if_pos hl]
    exact ⟨nofun, fun h => absurd h.1 (Nat.not_le_of_lt hl)⟩
  rw [if_neg hl]
  have hshort : (Text.Utf8.bytes text).length ≤ 254 := Nat.le_of_not_lt hl
  by_cases hp : text.toList.all isPrintable
  · simp [hshort, hp]
  · simp [hp]

/-- A name that the client chose comes back from the wire as it is. -/
theorem reread_of_ofText {text : String} {n : Name} (h : ofText text = .ok n) : n.reread = n := by
  obtain ⟨hl, hp, rfl⟩ := ofText_eq_ok_iff.mp h
  exact reread_of_le (fun h0 => absurd (hp _ h0) (by decide)) hl

section Printable

open Text

/-- The bytes of printable ASCII. -/
def IsPrintableByte (b : UInt8) : Prop :=
  0x20 ≤ b ∧ b ≤ 0x7E

theorem isPrintableByte_iff {b : UInt8} : IsPrintableByte b ↔ 32 ≤ b.toNat ∧ b.toNat ≤ 126 :=
  and_congr UInt8.le_iff_toNat_le UInt8.le_iff_toNat_le

theorem isPrintableByte_of_isPrintable {cs : List Char} (h : ∀ c ∈ cs, isPrintable c) :
    ∀ b ∈ Utf8.encode cs, IsPrintableByte b := by
  intro b hb
  obtain ⟨c, hc, hb⟩ := List.mem_flatMap.mp hb
  have hrange := isPrintable_iff.mp (h c hc)
  rw [Utf8.encodeChar_of_lt (by omega), List.mem_singleton] at hb
  rw [isPrintableByte_iff, hb, UInt8.toNat_ofNat']
  omega

theorem exists_encode_of_isPrintableByte {bs : Bytes} (h : ∀ b ∈ bs, IsPrintableByte b) :
    ∃ cs, bs = Utf8.encode cs ∧ ∀ c ∈ cs, isPrintable c := by
  induction bs with
  | nil => exact ⟨[], rfl, nofun⟩
  | cons b bs ih =>
    obtain ⟨cs, hcs, hp⟩ := ih fun b hb => h b (List.mem_cons_of_mem _ hb)
    have hrange := isPrintableByte_iff.mp (h b (List.mem_cons_self ..))
    have hchar : (Char.ofNat b.toNat).val.toNat = b.toNat := Utf8.toNat_ofNat (by omega)
    refine ⟨Char.ofNat b.toNat :: cs, ?_, List.forall_mem_cons.mpr ⟨?_, hp⟩⟩
    · rw [Utf8.encode_cons, Utf8.encodeChar_one (by omega), UInt8.ofNat_toNat, ← hcs]
      rfl
    · rw [isPrintable_iff, hchar]
      exact hrange

/-- A byte string is read as a name just if it has at most 254 bytes, all of them printable, and then
the name has just these bytes. -/
theorem exists_ofText_iff {s : Bytes} {n : Name} :
    (∃ cs, Utf8.decode? s = some cs ∧ ofText (String.ofList cs) = .ok n) ↔
      s.length ≤ 254 ∧ (∀ b ∈ s, IsPrintableByte b) ∧ n.bytes = s := by
  simp only [Utf8.decode?_eq_some_iff, ofText_eq_ok_iff, Utf8.bytes, String.toList_ofList]
  constructor
  · rintro ⟨cs, rfl, hlength, hp, rfl⟩
    refine ⟨hlength, isPrintableByte_of_isPrintable hp, ?_⟩
    rw [bytes, Utf8.bytes, String.toList_ofList]
  · rintro ⟨hlength, hp, hbytes⟩
    obtain ⟨cs, rfl, hcs⟩ := exists_encode_of_isPrintableByte hp
    refine ⟨cs, rfl, hlength, hcs, ?_⟩
    have htext : n.text.toList = cs := Utf8.encode_injective hbytes
    rw [← htext, String.ofList_toList]

end Printable

/-- What may be a user name: from one to 254 ASCII letters and digits. -/
def IsUsername (text : String) : Prop :=
  1 ≤ text.length ∧ text.length ≤ 254 ∧
    ∀ c ∈ text.toList, ('a' ≤ c ∧ c ≤ 'z') ∨ ('A' ≤ c ∧ c ≤ 'Z') ∨ ('0' ≤ c ∧ c ≤ '9')

theorem isPrintable_of_isAlphanumeric {c : Char} (h : isAlphanumeric c) : isPrintable c := by
  simp only [isAlphanumeric, decide_eq_true_eq] at h
  have hrange : 48 ≤ c.val.toNat ∧ c.val.toNat ≤ 122 := by
    rcases h with ⟨hl, hh⟩ | ⟨hl, hh⟩ | ⟨hl, hh⟩
    · have hl : 97 ≤ c.val.toNat := hl
      have hh : c.val.toNat ≤ 122 := hh
      omega
    · have hl : 65 ≤ c.val.toNat := hl
      have hh : c.val.toNat ≤ 90 := hh
      omega
    · have hl : 48 ≤ c.val.toNat := hl
      have hh : c.val.toNat ≤ 57 := hh
      omega
  exact isPrintable_iff.mpr (by omega)

/-- A user name is taken as it is, and nothing else is taken. -/
theorem ofUsername_eq_ok_iff {text : String} {n : Name} :
    ofUsername text = .ok n ↔ IsUsername text ∧ n = ⟨text⟩ := by
  have hall : text.toList.all isAlphanumeric = true ↔
      ∀ c ∈ text.toList, ('a' ≤ c ∧ c ≤ 'z') ∨ ('A' ≤ c ∧ c ≤ 'Z') ∨ ('0' ≤ c ∧ c ≤ '9') := by
    simp [isAlphanumeric]
  have hempty : text.isEmpty = true ↔ ¬1 ≤ text.length := by
    rw [String.isEmpty_iff, ← String.length_eq_zero_iff]
    omega
  unfold ofUsername IsUsername
  by_cases h0 : text.isEmpty
  · rw [if_pos h0]
    simp [hempty.mp h0]
  rw [if_neg h0]
  have h1 : 1 ≤ text.length := Decidable.not_not.mp (mt hempty.mpr h0)
  by_cases ha : text.toList.all isAlphanumeric
  · have hprintable : ∀ c ∈ text.toList, isPrintable c := fun c hc =>
      isPrintable_of_isAlphanumeric (List.all_eq_true.mp ha c hc)
    have hlength : (Text.Utf8.bytes text).length = text.length := by
      rw [Text.Utf8.bytes,
        Text.Utf8.length_encode_of_lt fun c hc => (isPrintable_range (hprintable c hc)).2]
      exact String.length_toList
    have hmap (f : TransferError → TransferError) :
        (ofText text).mapError f = .ok n ↔ ofText text = .ok n := by
      cases ofText text with
      | error e => exact ⟨nofun, nofun⟩
      | ok m => exact Iff.rfl
    rw [if_pos ha, hmap, ofText_eq_ok_iff, hlength]
    constructor
    · rintro ⟨hl, -, hn⟩
      exact ⟨⟨h1, hl, hall.mp ha⟩, hn⟩
    · rintro ⟨⟨-, hl, -⟩, hn⟩
      exact ⟨hl, hprintable, hn⟩
  · rw [if_neg ha]
    simp [← hall, ha]

end Name

end Courier
