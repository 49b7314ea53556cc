import Courier.Text.Blank
import Courier.Text.Decimal
import Mathlib.Data.List.TakeWhile

namespace Courier.Text

/-- A numeral and its value: decimal digits, one at least, and a plus sign before them or none. -/
def IsNumeral (cs : List Char) (n : Nat) : Prop :=
  ∃ ds, ds ≠ [] ∧ (∀ c ∈ ds, c.isDigit) ∧ (cs = ds ∨ cs = '+' :: ds) ∧ Nat.ofDigitChars 10 ds 0 = n

/-- A numeral with blanks around it or not, and its value. -/
def IsNumberText (cs : List Char) (n : Nat) : Prop :=
  ∃ before numeral after, cs = before ++ numeral ++ after ∧ (∀ c ∈ before, isBlank c) ∧
    (∀ c ∈ after, isBlank c) ∧ IsNumeral numeral n

section Numeral

variable {cs : List Char} {n : Nat}

theorem isNumeral_plus : IsNumeral ('+' :: cs) n ↔
    cs ≠ [] ∧ (∀ c ∈ cs, c.isDigit) ∧ Nat.ofDigitChars 10 cs 0 = n := by
  constructor
  · rintro ⟨ds, hne, hds, rfl | hcs, hn⟩
    · exact absurd (hds '+' (List.mem_cons_self ..)) (by decide)
    · obtain ⟨-, rfl⟩ := List.cons.inj hcs
      exact ⟨hne, hds, hn⟩
  · rintro ⟨hne, hcs, hn⟩
    exact ⟨cs, hne, hcs, .inr rfl, hn⟩

theorem isNumeral_of_ne (h : ∀ ds, cs ≠ '+' :: ds) : IsNumeral cs n ↔
    cs ≠ [] ∧ (∀ c ∈ cs, c.isDigit) ∧ Nat.ofDigitChars 10 cs 0 = n := by
  constructor
  · rintro ⟨ds, hne, hds, rfl | hcs, hn⟩
    · exact ⟨hne, hds, hn⟩
    · exact absurd hcs (h ds)
  · rintro ⟨hne, hcs, hn⟩
    exact ⟨cs, hne, hcs, .inl rfl, hn⟩

end Numeral

section Trim

theorem isBlank_of_isDigit {c : Char} (h : c.isDigit) : isBlank c = false := by
  simp only [Char.isDigit, Bool.and_eq_true, decide_eq_true_eq] at h
  have hlow : 48 ≤ c.toNat := UInt32.le_iff_toNat_le.mp h.1
  have hhigh : c.toNat ≤ 57 := UInt32.le_iff_toNat_le.mp h.2
  apply List.any_eq_false.mpr
  intro r hr
  -- The ranges of blanks lie before the digits or after them.
  have hapart : r.2 < 48 ∨ 57 < r.1 := by
    revert r
    decide
  grind

theorem IsNumeral.not_isBlank {cs : List Char} {n : Nat} (h : IsNumeral cs n) :
    ∀ c ∈ cs, isBlank c = false := by
  obtain ⟨ds, -, hds, rfl | rfl, -⟩ := h
  · exact fun c hc => isBlank_of_isDigit (hds c hc)
  · intro c hc
    rcases List.mem_cons.mp hc with rfl | hc
    · decide
    · exact isBlank_of_isDigit (hds c hc)

/-- No blanks are taken off where there are none. -/
theorem dropWhile_isBlank {cs : List Char} (h : ∀ c ∈ cs, isBlank c = false) :
    cs.dropWhile isBlank = cs := by
  apply List.dropWhile_eq_self_iff.mpr
  intro hl
  simp [h _ (List.getElem_mem hl)]

/-- What has no blanks is left of it with blanks around it. -/
theorem trim_append {before cs after : List Char} (hb : ∀ c ∈ before, isBlank c)
    (ha : ∀ c ∈ after, isBlank c) (hcs : ∀ c ∈ cs, isBlank c = false) :
    trim (before ++ cs ++ after) = cs := by
  have hend : ∀ c ∈ after.reverse, isBlank c := by simpa using ha
  unfold trim
  rw [List.append_assoc, List.dropWhile_append_of_pos hb]
  cases cs with
  | nil =>
    rw [List.nil_append, List.dropWhile_eq_nil_iff.mpr ha]
    rfl
  | cons c cs =>
    have hreverse : ∀ c' ∈ (c :: cs).reverse, isBlank c' = false :=
      fun c' hc' => hcs c' (List.mem_reverse.mp hc')
    rw [List.cons_append, List.dropWhile_cons_of_neg (by simp [hcs c (List.mem_cons_self ..)]),
      ← List.cons_append, List.reverse_append, List.dropWhile_append_of_pos hend,
      dropWhile_isBlank hreverse, List.reverse_reverse]

/-- Trimming takes off blanks. -/
theorem exists_eq_trim (cs : List Char) :
    ∃ before after, cs = before ++ trim cs ++ after ∧ (∀ c ∈ before, isBlank c) ∧
      ∀ c ∈ after, isBlank c := by
  refine ⟨cs.takeWhile isBlank,
    ((cs.dropWhile isBlank).reverse.takeWhile isBlank).reverse, ?_, fun c => List.mem_takeWhile_imp,
    fun c hc => List.mem_takeWhile_imp (List.mem_reverse.mp hc)⟩
  unfold trim
  rw [List.append_assoc, ← List.reverse_append, List.takeWhile_append_dropWhile,
    List.reverse_reverse, List.takeWhile_append_dropWhile]

end Trim

namespace Decimal

theorem digit?_eq_some_iff {c : Char} {d : Nat} :
    digit? c = some d ↔ c.isDigit ∧ c.toNat - '0'.toNat = d := by
  simp [digit?, Char.isDigit, Char.le_def]

theorem digit?_eq_none_iff {c : Char} : digit? c = none ↔ c.isDigit = false := by
  simp [digit?, Char.isDigit, Char.le_def]

theorem le_ofDigitChars (cs : List Char) (acc : Nat) : acc ≤ Nat.ofDigitChars 10 cs acc := by
  rw [Nat.ofDigitChars_eq_ofDigitChars_zero]
  calc
    acc ≤ 10 ^ cs.length * acc := Nat.le_mul_of_pos_left acc (Nat.pow_pos (by decide))
    _ ≤ 10 ^ cs.length * acc + Nat.ofDigitChars 10 cs 0 := Nat.le_add_right _ _

/-- Digits are read as long as the value is small enough; it never gets smaller. -/
theorem digits_eq_ok_iff {bound acc n : Nat} {cs : List Char} (ha : acc ≤ bound) :
    digits bound acc cs = .ok n ↔
      (∀ c ∈ cs, c.isDigit) ∧ Nat.ofDigitChars 10 cs acc = n ∧ n ≤ bound := by
  induction cs generalizing acc with
  | nil =>
    rw [digits, Nat.ofDigitChars_nil, Except.ok.injEq]
    constructor
    · rintro rfl
      exact ⟨by simp, rfl, ha⟩
    · rintro ⟨-, rfl, -⟩
      rfl
  | cons c cs ih =>
    rw [Nat.ofDigitChars_cons, Nat.mul_comm 10 acc, digits]
    cases hd : digit? c with
    | none =>
      have hc := digit?_eq_none_iff.mp hd
      simp [hc]
    | some d =>
      obtain ⟨hc, rfl⟩ := digit?_eq_some_iff.mp hd
      simp only
      split
      · rename_i hle
        rw [ih hle]
        simp [hc]
      · rename_i hlt
        have hge := le_ofDigitChars cs (acc * 10 + (c.toNat - '0'.toNat))
        constructor
        · intro h
          cases h
        · rintro ⟨-, hn, hle⟩
          omega

theorem parse_eq_ok_iff {bound n : Nat} {cs : List Char} :
    parse bound cs = .ok n ↔ IsNumeral cs n ∧ n ≤ bound := by
  unfold parse
  split
  · simp [isNumeral_of_ne]
  · simp [isNumeral_plus]
  · rename_i cs hne
    have hcs : cs ≠ [] := hne
    rw [digits_eq_ok_iff (Nat.zero_le bound), isNumeral_plus]
    simp [hcs, and_assoc]
  · rename_i hempty _ hplus
    have hcs : cs ≠ [] := hempty
    rw [digits_eq_ok_iff (Nat.zero_le bound), isNumeral_of_ne hplus]
    simp [hcs, and_assoc]

theorem parse_trim_eq_ok_iff {bound n : Nat} {cs : List Char} :
    parse bound (trim cs) = .ok n ↔ IsNumberText cs n ∧ n ≤ bound := by
  constructor
  · intro h
    obtain ⟨hnumeral, hle⟩ := parse_eq_ok_iff.mp h
    obtain ⟨before, after, hcs, hb, ha⟩ := exists_eq_trim cs
    exact ⟨⟨before, trim cs, after, hcs, hb, ha, hnumeral⟩, hle⟩
  · rintro ⟨⟨before, numeral, after, rfl, hb, ha, hnumeral⟩, hle⟩
    rw [trim_append hb ha hnumeral.not_isBlank]
    exact parse_eq_ok_iff.mpr ⟨hnumeral, hle⟩

end Decimal

end Courier.Text
