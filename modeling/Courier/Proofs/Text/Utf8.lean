import Courier.Text.Utf8

namespace Courier.Text.Utf8

private theorem toNat_byte {n : Nat} (h : n < 256) : (UInt8.ofNat n).toNat = n := by
  simp [Nat.mod_eq_of_lt h]

theorem lead_one {n : Nat} (h : n < 0x80) : lead (UInt8.ofNat n) = .char (Char.ofNat n) := by
  rw [lead, toNat_byte (by omega)]
  simp only [h, if_true]

theorem lead_two {n : Nat} (h : 0xC2 ≤ n) (h' : n < 0xE0) :
    lead (UInt8.ofNat n) = .begun ⟨1, n - 0xC0, 0x80, 0xBF⟩ := by
  rw [lead, toNat_byte (by omega), if_neg (by omega), if_neg (by omega), if_pos h']

theorem lead_three {n : Nat} (h : 0xE0 ≤ n) (h' : n < 0xF0) :
    lead (UInt8.ofNat n) =
      .begun ⟨2, n - 0xE0, if n = 0xE0 then 0xA0 else 0x80, if n = 0xED then 0x9F else 0xBF⟩ := by
  rw [lead, toNat_byte (by omega), if_neg (by omega), if_neg (by omega), if_neg (by omega)]
  split
  · subst n
    rfl
  split
  · subst n
    rfl
  · rfl

theorem lead_four {n : Nat} (h : 0xF0 ≤ n) (h' : n < 0xF5) :
    lead (UInt8.ofNat n) =
      .begun ⟨3, n - 0xF0, if n = 0xF0 then 0x90 else 0x80, if n = 0xF4 then 0x8F else 0xBF⟩ := by
  rw [lead, toNat_byte (by omega), if_neg (by omega), if_neg (by omega), if_neg (by omega),
    if_neg (by omega), if_neg (by omega), if_neg (by omega)]
  split
  · subst n
    rfl
  split
  · rename_i hn hlt
    rw [if_neg (by omega)]
  · rw [if_pos (by omega)]
    have hn : n = 0xF4 := by omega
    subst n
    rfl

theorem scan_lead {b : UInt8} {p : Begun} (h : lead b = .begun p) (bs : Bytes) :
    scan none (b :: bs) = scan (some p) bs := by
  simp [scan, step, start, h]

theorem scan_middle {missing left value n low high : Nat} (hm : missing = left + 1)
    (hleft : 1 ≤ left) (hn : n < 0x40) (hl : low ≤ n + 0x80) (hh : n + 0x80 ≤ high) (bs : Bytes) :
    scan (some ⟨missing, value, low, high⟩) (UInt8.ofNat (n + 0x80) :: bs) =
      scan (some ⟨left, value * 64 + n, 0x80, 0xBF⟩) bs := by
  have h : ¬left + 1 ≤ 1 := by omega
  simp only [scan, step, toNat_byte (show n + 0x80 < 256 by omega), hm, hl, hh, h, and_self,
    if_true, if_false, List.nil_append, Nat.add_sub_cancel]

theorem scan_last {value n low high : Nat} (hn : n < 0x40) (hl : low ≤ n + 0x80)
    (hh : n + 0x80 ≤ high) (bs : Bytes) :
    scan (some ⟨1, value, low, high⟩) (UInt8.ofNat (n + 0x80) :: bs) =
      some (Char.ofNat (value * 64 + n)) :: scan none bs := by
  simp only [scan, step, toNat_byte (show n + 0x80 < 256 by omega), hl, hh, and_self, if_true,
    Nat.le_refl, List.cons_append, List.nil_append, Nat.add_sub_cancel]

/-- A character's own bytes are read as that character. -/
theorem scan_encodeChar (c : Char) (bs : Bytes) :
    scan none (String.utf8EncodeChar c ++ bs) = some c :: scan none bs := by
  have hv : c.val.toNat < 0xD800 ∨ 0xDFFF < c.val.toNat ∧ c.val.toNat < 0x110000 := c.valid
  have hc : Char.ofNat c.val.toNat = c := Char.ofNat_toNat c
  unfold String.utf8EncodeChar
  generalize c.val.toNat = v at hv hc
  simp only
  split
  · simp only [List.cons_append, List.nil_append, scan, step, start,
      lead_one (show v < 0x80 by omega), hc]
  split
  · simp only [List.cons_append, List.nil_append]
    rw [scan_lead (lead_two (by omega) (by omega)),
      scan_last (by omega) (by omega) (by omega)]
    rw [show (v / 64 % 0x20 + 0xC0 - 0xC0) * 64 + v % 0x40 = v by omega, hc]
  split
  · simp only [List.cons_append, List.nil_append]
    rw [scan_lead (lead_three (by omega) (by omega)),
      scan_middle rfl (by omega) (by omega) (by split <;> omega) (by split <;> omega),
      scan_last (by omega) (by omega) (by omega)]
    rw [show ((v / 4096 % 0x10 + 0xE0 - 0xE0) * 64 + v / 64 % 0x40) * 64 + v % 0x40 = v by omega,
      hc]
  · simp only [List.cons_append, List.nil_append]
    rw [scan_lead (lead_four (by omega) (by omega)),
      scan_middle rfl (by omega) (by omega) (by split <;> omega) (by split <;> omega),
      scan_middle rfl (by omega) (by omega) (by omega) (by omega),
      scan_last (by omega) (by omega) (by omega)]
    rw [show (((v / 262144 % 0x08 + 0xF0 - 0xF0) * 64 + v / 4096 % 0x40) * 64 + v / 64 % 0x40) * 64
      + v % 0x40 = v by omega, hc]

/-- A text is read as it is, and what follows it for itself. -/
theorem scan_encode_append (cs : List Char) (bs : Bytes) :
    scan none (encode cs ++ bs) = cs.map some ++ scan none bs := by
  induction cs with
  | nil => rfl
  | cons c cs ih =>
    rw [encode_cons, List.append_assoc, scan_encodeChar, ih, List.map_cons, List.cons_append]

theorem decodeLossy_encode_append (cs : List Char) (bs : Bytes) :
    decodeLossy (encode cs ++ bs) = cs ++ decodeLossy bs := by
  rw [decodeLossy, scan_encode_append, List.map_append, List.map_map]
  exact congrArg (· ++ _) (List.map_id cs)

@[simp] theorem decodeLossy_encode (cs : List Char) : decodeLossy (encode cs) = cs := by
  have h := decodeLossy_encode_append cs []
  rwa [List.append_nil, show decodeLossy [] = [] from rfl, List.append_nil] at h

section Cut

variable {c : Char} {cs : List Char} {k n : Nat}

/-- A character that lacks its last bytes is one broken stretch. -/
theorem scan_take_encodeChar (h : 0 < k) (hk : k < (String.utf8EncodeChar c).length) :
    scan none ((String.utf8EncodeChar c).take k) = [none] := by
  have hv : c.val.toNat < 0xD800 ∨ 0xDFFF < c.val.toNat ∧ c.val.toNat < 0x110000 := c.valid
  unfold String.utf8EncodeChar at hk ⊢
  generalize c.val.toNat = v at hv hk
  simp only at hk ⊢
  split at hk
  · simp only [List.length_cons, List.length_nil] at hk
    omega
  split at hk
  · obtain rfl : k = 1 := by
      simp only [List.length_cons, List.length_nil] at hk
      omega
    rw [if_neg (by omega), if_pos (by omega)]
    simp only [List.take_succ_cons, List.take_zero]
    rw [scan_lead (lead_two (by omega) (by omega)), scan]
  split at hk
  · rw [if_neg (by omega), if_neg (by omega), if_pos (by omega)]
    obtain rfl | rfl : k = 1 ∨ k = 2 := by
      simp only [List.length_cons, List.length_nil] at hk
      omega
    all_goals
      simp only [List.take_succ_cons, List.take_zero]
      rw [scan_lead (lead_three (by omega) (by omega))]
    · rw [scan]
    · rw [scan_middle rfl (by omega) (by omega) (by split <;> omega) (by split <;> omega), scan]
  · rw [if_neg (by omega), if_neg (by omega), if_neg (by omega)]
    obtain rfl | rfl | rfl : k = 1 ∨ k = 2 ∨ k = 3 := by
      simp only [List.length_cons, List.length_nil] at hk
      omega
    all_goals
      simp only [List.take_succ_cons, List.take_zero]
      rw [scan_lead (lead_four (by omega) (by omega))]
    · rw [scan]
    · rw [scan_middle rfl (by omega) (by omega) (by split <;> omega) (by split <;> omega), scan]
    · rw [scan_middle rfl (by omega) (by omega) (by split <;> omega) (by split <;> omega),
        scan_middle rfl (by omega) (by omega) (by omega) (by omega), scan]

/-- The first bytes of a text are those of some of its characters and, if the cut goes through a
character, the first of its bytes. -/
theorem take_encode (cs : List Char) (n : Nat) :
    (∃ front, front <+: cs ∧ (encode cs).take n = encode front) ∨
    ∃ front c back k, cs = front ++ c :: back ∧ 0 < k ∧ k < (String.utf8EncodeChar c).length ∧
      (encode cs).take n = encode front ++ (String.utf8EncodeChar c).take k := by
  induction cs generalizing n with
  | nil => exact .inl ⟨[], List.prefix_rfl, by simp⟩
  | cons c cs ih =>
    rw [encode_cons, List.take_append]
    by_cases h0 : n = 0
    · subst h0
      exact .inl ⟨[], List.nil_prefix, by simp⟩
    by_cases hn : n < (String.utf8EncodeChar c).length
    · refine .inr ⟨[], c, cs, n, rfl, by omega, hn, ?_⟩
      rw [show n - (String.utf8EncodeChar c).length = 0 by omega, List.take_zero, encode_nil,
        List.append_nil, List.nil_append]
    -- The whole first character is there.
    rw [List.take_of_length_le (by omega)]
    obtain ⟨front, hf, ht⟩ | ⟨front, c', back, k, rfl, h, hk, ht⟩ :=
        ih (n - (String.utf8EncodeChar c).length)
    · exact .inl ⟨c :: front, List.cons_prefix_cons.mpr ⟨rfl, hf⟩, by rw [ht, encode_cons]⟩
    · exact .inr ⟨c :: front, c', back, k, rfl, h, hk,
        by rw [ht, encode_cons, List.append_assoc]⟩

end Cut

theorem encodeChar_of_lt {c : Char} (h : c.val.toNat < 0x80) :
    String.utf8EncodeChar c = [UInt8.ofNat c.val.toNat] := by
  unfold String.utf8EncodeChar
  simp only
  rw [if_pos (by omega)]

section Nul

theorem ne_zero_of_mem_encodeChar {c : Char} (h : c ≠ '\x00') {b : UInt8}
    (hb : b ∈ String.utf8EncodeChar c) : b ≠ 0 := by
  have hv : c.val.toNat < 0xD800 ∨ 0xDFFF < c.val.toNat ∧ c.val.toNat < 0x110000 := c.valid
  have h0 : c.val.toNat ≠ 0 := fun h0 => h (Char.ext (UInt32.toNat_inj.mp h0))
  -- No byte of the encoding is small, but for a character that is its own byte.
  have hbyte {n : Nat} (hn : n < 256) (hpos : n ≠ 0) : UInt8.ofNat n ≠ 0 := by
    intro hz
    have := congrArg UInt8.toNat hz
    rw [toNat_byte hn] at this
    exact hpos this
  unfold String.utf8EncodeChar at hb
  generalize c.val.toNat = v at hv h0 hb
  simp only at hb
  split at hb
  · simp only [List.mem_cons, List.not_mem_nil, or_false] at hb
    rw [hb]
    exact hbyte (by omega) h0
  split at hb
  · simp only [List.mem_cons, List.not_mem_nil, or_false] at hb
    obtain rfl | rfl := hb <;> exact hbyte (by omega) (by omega)
  split at hb
  · simp only [List.mem_cons, List.not_mem_nil, or_false] at hb
    obtain rfl | rfl | rfl := hb <;> exact hbyte (by omega) (by omega)
  · simp only [List.mem_cons, List.not_mem_nil, or_false] at hb
    obtain rfl | rfl | rfl | rfl := hb <;> exact hbyte (by omega) (by omega)

/-- A text without NUL has no zero byte. -/
theorem ne_zero_of_mem_encode {cs : List Char} (h : '\x00' ∉ cs) {b : UInt8}
    (hb : b ∈ encode cs) : b ≠ 0 := by
  obtain ⟨c, hc, hb⟩ := List.mem_flatMap.mp hb
  exact ne_zero_of_mem_encodeChar (fun h0 => h (h0 ▸ hc)) hb

/-- How many values the next `n` bytes of a character tell apart. -/
def spread : Nat → Nat
  | 0 => 1
  | n + 1 => 64 * spread n

/-- The least value that a character begun can come to. -/
def Begun.least (p : Begun) : Nat :=
  (p.value * 64 + (p.low - 0x80)) * spread (p.missing - 1)

/-- What every value that a character begun can come to is below. -/
def Begun.bound (p : Begun) : Nat :=
  (p.value * 64 + (p.high - 0x80) + 1) * spread (p.missing - 1)

theorem Begun.least_next {missing value : Nat} (h : 1 < missing) :
    least ⟨missing - 1, value, 0x80, 0xBF⟩ = value * spread (missing - 1) := by
  obtain ⟨m, rfl⟩ : ∃ m, missing = m + 2 := ⟨missing - 2, by omega⟩
  rw [least, Nat.sub_self, Nat.add_zero, Nat.mul_assoc]
  rfl

theorem Begun.bound_next {missing value : Nat} (h : 1 < missing) :
    bound ⟨missing - 1, value, 0x80, 0xBF⟩ = (value + 1) * spread (missing - 1) := by
  obtain ⟨m, rfl⟩ : ∃ m, missing = m + 2 := ⟨missing - 2, by omega⟩
  have hd : value * 64 + 63 + 1 = (value + 1) * 64 := by omega
  simp only [bound, Nat.reduceSub]
  rw [hd, Nat.mul_assoc]
  rfl

/-- The bytes that may follow complete a character that needs more than one byte. -/
def Begun.IsSound (p : Begun) : Prop :=
  0x80 ≤ p.least ∧ (p.bound ≤ 0xD800 ∨ 0xE000 ≤ p.least ∧ p.bound ≤ 0x110000)

theorem lead_sound {b : UInt8} {p : Begun} (h : lead b = .begun p) : p.IsSound := by
  have hb := b.toNat_lt
  unfold lead at h
  generalize b.toNat = n at h hb
  simp only at h
  repeat' split at h
  all_goals cases h
  all_goals
    simp only [Begun.IsSound, Begun.least, Begun.bound, Nat.reduceSub, spread]
    omega

theorem ofNat_ne_nul {v : Nat} (h0 : v ≠ 0) (hv : v < 0xD800 ∨ 0xDFFF < v ∧ v < 0x110000) :
    Char.ofNat v ≠ '\x00' := by
  intro h
  have hval : (Char.ofNat v).toNat = v := by
    rw [Char.ofNat, dif_pos hv]
    rfl
  rw [h] at hval
  exact h0 hval.symm

theorem start_sound {b : UInt8} (h : b ≠ 0) :
    some '\x00' ∉ (start b).1 ∧ ∀ p, (start b).2 = some p → p.IsSound := by
  unfold start
  cases hl : lead b with
  | char c =>
    refine ⟨?_, nofun⟩
    have h0 : b.toNat ≠ 0 := fun h0 => h (UInt8.toNat_inj.mp h0)
    have hc : c ≠ '\x00' := by
      unfold lead at hl
      simp only at hl
      repeat' split at hl
      all_goals cases hl
      exact ofNat_ne_nul h0 (by omega)
    simpa using hc.symm
  | begun p =>
    refine ⟨nofun, fun q hq => ?_⟩
    cases hq
    exact lead_sound hl
  | broken => exact ⟨by simp, nofun⟩

theorem step_sound {s : Option Begun} {b : UInt8} (h : b ≠ 0) (hs : ∀ p, s = some p → p.IsSound) :
    some '\x00' ∉ (step s b).1 ∧ ∀ p, (step s b).2 = some p → p.IsSound := by
  cases s with
  | none => exact start_sound h
  | some p =>
    obtain ⟨hleast, hbound⟩ := hs p rfl
    unfold step
    simp only
    split
    · rename_i hrange
      -- The value with this byte lies where the values begun lie.
      obtain ⟨d, hd⟩ : ∃ d, p.value * 64 + (b.toNat - 0x80) = d := ⟨_, rfl⟩
      have hlow : p.least ≤ d * spread (p.missing - 1) :=
        Nat.mul_le_mul_right _ (by omega)
      have hhigh : (d + 1) * spread (p.missing - 1) ≤ p.bound :=
        Nat.mul_le_mul_right _ (by omega)
      rw [hd]
      split
      · rw [show p.missing - 1 = 0 by omega, spread, Nat.mul_one] at hlow hhigh
        have hc := ofNat_ne_nul (v := d) (by omega) (by omega)
        exact ⟨by simpa using hc.symm, nofun⟩
      · refine ⟨nofun, fun q hq => ?_⟩
        cases hq
        rw [Begun.IsSound, Begun.least_next (by omega), Begun.bound_next (by omega)]
        omega
    · obtain ⟨hnone, hnext⟩ := start_sound h
      exact ⟨by simpa using hnone, hnext⟩

theorem scan_sound {s : Option Begun} {bs : Bytes} (hs : ∀ p, s = some p → p.IsSound)
    (h : ∀ b ∈ bs, b ≠ 0) : some '\x00' ∉ scan s bs := by
  induction bs generalizing s with
  | nil => cases s <;> simp [scan]
  | cons b bs ih =>
    obtain ⟨hnow, hnext⟩ := step_sound (h b (List.mem_cons_self ..)) hs
    rw [scan, List.mem_append]
    rintro (hm | hm)
    · exact hnow hm
    · exact ih hnext (fun b hb => h b (List.mem_cons_of_mem _ hb)) hm

/-- No bytes but a zero byte are read as NUL. -/
theorem nul_notMem_decodeLossy {bs : Bytes} (h : ∀ b ∈ bs, b ≠ 0) : '\x00' ∉ decodeLossy bs := by
  intro hm
  obtain ⟨c, hc, hget⟩ := List.mem_map.mp hm
  cases c with
  | none => exact absurd hget (by decide)
  | some c =>
    obtain rfl : c = '\x00' := hget
    exact scan_sound (s := none) (by simp) h hc

end Nul

/-- ASCII takes a byte for each character. -/
theorem length_encode_of_lt {cs : List Char} (h : ∀ c ∈ cs, c.val.toNat < 0x80) :
    (encode cs).length = cs.length := by
  induction cs with
  | nil => rfl
  | cons c cs ih =>
    rw [encode_cons, encodeChar_of_lt (h c (List.mem_cons_self ..)), List.length_append,
      ih fun c hc => h c (List.mem_cons_of_mem _ hc), List.length_cons]
    exact Nat.add_comm 1 _

theorem length_le_encode (cs : List Char) : cs.length ≤ (encode cs).length := by
  induction cs with
  | nil => exact Nat.le_refl _
  | cons c cs ih =>
    rw [encode_cons, List.length_append, String.length_utf8EncodeChar, List.length_cons]
    have hsize := c.utf8Size_pos
    omega

/-- A character takes a byte at least. -/
theorem length_le_bytes (s : String) : s.length ≤ (bytes s).length :=
  String.length_toList ▸ length_le_encode s.toList

end Courier.Text.Utf8
