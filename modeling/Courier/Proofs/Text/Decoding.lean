import Courier.Proofs.Text.Utf8

namespace Courier.Text.Utf8

theorem toNat_ofNat {v : Nat} (hv : v < 0xD800 ∨ 0xDFFF < v ∧ v < 0x110000) :
    (Char.ofNat v).val.toNat = v := by
  rw [Char.ofNat, dif_pos hv]
  rfl

section Encoding

variable {v n m k l : Nat}

theorem encodeChar_one (h : n < 0x80) : String.utf8EncodeChar (Char.ofNat n) = [UInt8.ofNat n] := by
  have hn := toNat_ofNat (v := n) (by omega)
  rw [encodeChar_of_lt (by omega), hn]

theorem encodeChar_two (hn : 0xC2 ≤ n ∧ n < 0xE0) (hm : 0x80 ≤ m ∧ m ≤ 0xBF)
    (hv : v = (n - 0xC0) * 64 + (m - 0x80)) :
    String.utf8EncodeChar (Char.ofNat v) = [UInt8.ofNat n, UInt8.ofNat m] := by
  have hn' : n = v / 64 % 32 + 0xC0 := by omega
  have hm' : m = v % 64 + 0x80 := by omega
  unfold String.utf8EncodeChar
  simp only [toNat_ofNat (v := v) (by omega)]
  rw [if_neg (by omega), if_pos (by omega), ← hn', ← hm']

theorem encodeChar_three (hn : 0xE0 ≤ n ∧ n < 0xF0) (hm : 0x80 ≤ m ∧ m ≤ 0xBF)
    (hk : 0x80 ≤ k ∧ k ≤ 0xBF) (hlong : n = 0xE0 → 0xA0 ≤ m) (hsurrogate : n = 0xED → m ≤ 0x9F)
    (hv : v = ((n - 0xE0) * 64 + (m - 0x80)) * 64 + (k - 0x80)) :
    String.utf8EncodeChar (Char.ofNat v) = [UInt8.ofNat n, UInt8.ofNat m, UInt8.ofNat k] := by
  have hn' : n = v / 4096 % 16 + 0xE0 := by omega
  have hm' : m = v / 64 % 64 + 0x80 := by omega
  have hk' : k = v % 64 + 0x80 := by omega
  unfold String.utf8EncodeChar
  simp only [toNat_ofNat (v := v) (by omega)]
  rw [if_neg (by omega), if_neg (by omega), if_pos (by omega), ← hn', ← hm', ← hk']

theorem encodeChar_four (hn : 0xF0 ≤ n ∧ n < 0xF5) (hm : 0x80 ≤ m ∧ m ≤ 0xBF)
    (hk : 0x80 ≤ k ∧ k ≤ 0xBF) (hl : 0x80 ≤ l ∧ l ≤ 0xBF) (hlong : n = 0xF0 → 0x90 ≤ m)
    (hlarge : n = 0xF4 → m ≤ 0x8F)
    (hv : v = (((n - 0xF0) * 64 + (m - 0x80)) * 64 + (k - 0x80)) * 64 + (l - 0x80)) :
    String.utf8EncodeChar (Char.ofNat v) =
      [UInt8.ofNat n, UInt8.ofNat m, UInt8.ofNat k, UInt8.ofNat l] := by
  have hn' : n = v / 262144 % 8 + 0xF0 := by omega
  have hm' : m = v / 4096 % 64 + 0x80 := by omega
  have hk' : k = v / 64 % 64 + 0x80 := by omega
  have hl' : l = v % 64 + 0x80 := by omega
  unfold String.utf8EncodeChar
  simp only [toNat_ofNat (v := v) (by omega)]
  rw [if_neg (by omega), if_neg (by omega), if_neg (by omega), ← hn', ← hm', ← hk', ← hl']

end Encoding

theorem lead_char {b : UInt8} {c : Char} (h : lead b = .char c) :
    b.toNat < 0x80 ∧ c = Char.ofNat b.toNat := by
  unfold lead at h
  simp only at h
  by_cases hlt : b.toNat < 0x80
  · rw [if_pos hlt] at h
    cases h
    exact ⟨hlt, rfl⟩
  · rw [if_neg hlt] at h
    repeat' split at h
    all_goals cases h

/-- A character that is begun needs one, two or three bytes more, as its first byte says. -/
theorem lead_cases {b : UInt8} {p : Begun} (h : lead b = .begun p) :
    (0xC2 ≤ b.toNat ∧ b.toNat < 0xE0 ∧ p = ⟨1, b.toNat - 0xC0, 0x80, 0xBF⟩) ∨
    (0xE0 ≤ b.toNat ∧ b.toNat < 0xF0 ∧ p = ⟨2, b.toNat - 0xE0,
      if b.toNat = 0xE0 then 0xA0 else 0x80, if b.toNat = 0xED then 0x9F else 0xBF⟩) ∨
    (0xF0 ≤ b.toNat ∧ b.toNat < 0xF5 ∧ p = ⟨3, b.toNat - 0xF0,
      if b.toNat = 0xF0 then 0x90 else 0x80, if b.toNat = 0xF4 then 0x8F else 0xBF⟩) := by
  have hb : UInt8.ofNat b.toNat = b := UInt8.ofNat_toNat
  by_cases h2 : b.toNat < 0xC2
  · unfold lead at h
    simp only [h2, if_true] at h
    split at h <;> cases h
  by_cases h3 : b.toNat < 0xE0
  · rw [← hb, lead_two (by omega) h3] at h
    cases h
    exact .inl ⟨by omega, h3, rfl⟩
  by_cases h4 : b.toNat < 0xF0
  · rw [← hb, lead_three (by omega) h4] at h
    cases h
    exact .inr (.inl ⟨by omega, h4, rfl⟩)
  by_cases h5 : b.toNat < 0xF5
  · rw [← hb, lead_four (by omega) h5] at h
    cases h
    exact .inr (.inr ⟨by omega, h5, rfl⟩)
  · unfold lead at h
    simp only at h
    repeat rw [if_neg (by omega)] at h
    cases h

section Scan

variable {left value low high : Nat} {bs : Bytes} {c : Char} {rest : List (Option Char)}

/-- A character is completed by a byte in the range for its last one. -/
theorem scan_eq_last (h : scan (some ⟨1, value, low, high⟩) bs = some c :: rest) :
    ∃ b tail, bs = b :: tail ∧ (low ≤ b.toNat ∧ b.toNat ≤ high) ∧
      c = Char.ofNat (value * 64 + (b.toNat - 0x80)) ∧ rest = scan none tail := by
  cases bs with
  | nil => cases h
  | cons b tail =>
    unfold scan step at h
    by_cases hrange : low ≤ b.toNat ∧ b.toNat ≤ high
    · simp only [hrange, and_self, if_true, Nat.le_refl] at h
      obtain ⟨hc, hrest⟩ := List.cons.inj h
      exact ⟨b, tail, rfl, hrange, (Option.some.inj hc).symm, hrest.symm⟩
    · simp only [hrange, if_false] at h
      cases h

/-- With a byte in the range before its last one, what is begun then is completed. -/
theorem scan_eq_middle (h : scan (some ⟨left + 2, value, low, high⟩) bs = some c :: rest) :
    ∃ b tail, bs = b :: tail ∧ (low ≤ b.toNat ∧ b.toNat ≤ high) ∧
      scan (some ⟨left + 1, value * 64 + (b.toNat - 0x80), 0x80, 0xBF⟩) tail =
        some c :: rest := by
  cases bs with
  | nil => cases h
  | cons b tail =>
    unfold scan step at h
    by_cases hrange : low ≤ b.toNat ∧ b.toNat ≤ high
    · have hmore : ¬left + 2 ≤ 1 := by omega
      simp only [hrange, and_self, if_true, hmore, if_false] at h
      exact ⟨b, tail, rfl, hrange, h⟩
    · simp only [hrange, if_false] at h
      cases h

/-- A character that is read first has just the bytes that are read. -/
theorem scan_eq_some_cons (h : scan none bs = some c :: rest) :
    ∃ tail, bs = String.utf8EncodeChar c ++ tail ∧ rest = scan none tail := by
  cases bs with
  | nil => cases h
  | cons b bs =>
    have hb : UInt8.ofNat b.toNat = b := UInt8.ofNat_toNat
    cases hl : lead b with
    | broken =>
      simp only [scan, step, start, hl] at h
      cases h
    | char a =>
      simp only [scan, step, start, hl] at h
      obtain ⟨ha, hrest⟩ := List.cons.inj h
      cases ha
      obtain ⟨hlt, rfl⟩ := lead_char hl
      exact ⟨bs, by rw [encodeChar_one hlt, hb, List.singleton_append], hrest.symm⟩
    | begun p =>
      rw [scan_lead hl] at h
      rcases lead_cases hl with ⟨hmin, hmax, rfl⟩ | ⟨hmin, hmax, rfl⟩ | ⟨hmin, hmax, rfl⟩
      · obtain ⟨b₁, tail, rfl, hr₁, hc, hrest⟩ := scan_eq_last h
        have hb₁ : UInt8.ofNat b₁.toNat = b₁ := UInt8.ofNat_toNat
        refine ⟨tail, ?_, hrest⟩
        rw [hc, encodeChar_two ⟨hmin, hmax⟩ hr₁ rfl, hb, hb₁]
        rfl
      · obtain ⟨b₁, bs₁, rfl, hr₁, h₁⟩ := scan_eq_middle h
        obtain ⟨b₂, tail, rfl, hr₂, hc, hrest⟩ := scan_eq_last h₁
        have hb₁ : UInt8.ofNat b₁.toNat = b₁ := UInt8.ofNat_toNat
        have hb₂ : UInt8.ofNat b₂.toNat = b₂ := UInt8.ofNat_toNat
        refine ⟨tail, ?_, hrest⟩
        rw [hc, encodeChar_three ⟨hmin, hmax⟩ (by grind) hr₂ (by grind) (by grind) rfl, hb, hb₁, hb₂]
        rfl
      · obtain ⟨b₁, bs₁, rfl, hr₁, h₁⟩ := scan_eq_middle h
        obtain ⟨b₂, bs₂, rfl, hr₂, h₂⟩ := scan_eq_middle h₁
        obtain ⟨b₃, tail, rfl, hr₃, hc, hrest⟩ := scan_eq_last h₂
        have hb₁ : UInt8.ofNat b₁.toNat = b₁ := UInt8.ofNat_toNat
        have hb₂ : UInt8.ofNat b₂.toNat = b₂ := UInt8.ofNat_toNat
        have hb₃ : UInt8.ofNat b₃.toNat = b₃ := UInt8.ofNat_toNat
        refine ⟨tail, ?_, hrest⟩
        rw [hc, encodeChar_four ⟨hmin, hmax⟩ (by grind) hr₂ hr₃ (by grind) (by grind) rfl, hb, hb₁, hb₂,
          hb₃]
        rfl

/-- What is begun is read as something, if only as broken. -/
theorem scan_begun_ne_nil (p : Begun) (bs : Bytes) : scan (some p) bs ≠ [] := by
  induction bs generalizing p with
  | nil => simp [scan]
  | cons b bs ih =>
    unfold scan step
    by_cases hrange : p.low ≤ b.toNat ∧ b.toNat ≤ p.high
    · by_cases hlast : p.missing ≤ 1
      · simp [hrange, hlast]
      · simpa [hrange, hlast] using ih _
    · simp [hrange]

theorem scan_cons_ne_nil (b : UInt8) (bs : Bytes) : scan none (b :: bs) ≠ [] := by
  cases hl : lead b with
  | char c => simp [scan, step, start, hl]
  | broken => simp [scan, step, start, hl]
  | begun p =>
    rw [scan_lead hl]
    exact scan_begun_ne_nil p bs

/-- The bytes of a text are all that is read as it. -/
theorem eq_encode_of_scan {bs : Bytes} {cs : List Char} (h : scan none bs = cs.map some) :
    bs = encode cs := by
  induction cs generalizing bs with
  | nil =>
    cases bs with
    | nil => rfl
    | cons b bs => exact absurd h (scan_cons_ne_nil b bs)
  | cons c cs ih =>
    obtain ⟨tail, rfl, hrest⟩ := scan_eq_some_cons h
    rw [encode_cons, ih hrest.symm]

end Scan

theorem mapM_id_eq_some_iff {α : Type} {xs : List (Option α)} {as : List α} :
    xs.mapM id = some as ↔ xs = as.map some := by
  induction xs generalizing as with
  | nil => cases as <;> simp
  | cons x xs ih =>
    rw [List.mapM_cons]
    cases x with
    | none => cases as <;> simp
    | some a =>
      cases as with
      | nil => simp [Option.bind_eq_some_iff]
      | cons a' as => simpa [ih, Option.bind_eq_some_iff] using and_comm

/-- A byte string is read as a text just if it is the bytes of the text. -/
theorem decode?_eq_some_iff {bs : Bytes} {cs : List Char} :
    decode? bs = some cs ↔ bs = encode cs := by
  unfold decode?
  rw [mapM_id_eq_some_iff]
  constructor
  · exact eq_encode_of_scan
  · rintro rfl
    have hscan := scan_encode_append cs []
    rw [List.append_nil] at hscan
    exact hscan.trans (List.append_nil _)

theorem encode_injective {cs cs' : List Char} (h : encode cs = encode cs') : cs = cs' :=
  Option.some.inj ((decode?_eq_some_iff.mpr rfl).symm.trans (decode?_eq_some_iff.mpr h))

end Courier.Text.Utf8
