import Courier.Checksum
import Mathlib.Data.Nat.Bitwise
import Mathlib.Logic.Function.Iterate

/-!
What the checksum tells apart. A byte string is read as a number, its first bit lowest. A shift of
the register is linear in exclusive or, and the register after a byte string is what as many shifts
as the string has bits make of that number. Two strings that differ by a burst are thus told apart
by what the shifts make of the burst alone: it moves down to the low end and then never vanishes.
-/

namespace Courier

namespace Bytes

/-- The bits byte by byte, each byte from its lowest bit; after the end there are only zeros. -/
def bit (bs : Bytes) (i : Nat) : Bool :=
  (bs.getD (i / 8) 0).toNat.testBit (i % 8)

/-- The bytes with one bit the other way. -/
def flipBit (i : Nat) (bs : Bytes) : Bytes :=
  bs.modify (i / 8) (· ^^^ UInt8.ofNat (2 ^ (i % 8)))

/-- The strings are equally long and differ, but only within 32 bits in a row. -/
structure Burst (sent received : Bytes) : Prop where
  length_eq : received.length = sent.length
  ne : sent ≠ received
  within : ∃ start, ∀ i, sent.bit i ≠ received.bit i → start ≤ i ∧ i < start + 32

theorem bit_flipBit {bs : Bytes} {i : Nat} (h : i < 8 * bs.length) (j : Nat) :
    (bs.flipBit i).bit j = (bs.bit j ^^ decide (i = j)) := by
  have hlt : i / 8 < bs.length := by omega
  by_cases hbyte : i / 8 = j / 8
  · have hmask : 2 ^ (i % 8) < 256 := Nat.pow_lt_pow_right (by decide) (Nat.mod_lt i (by decide))
    have hsame : i % 8 = j % 8 ↔ i = j := by omega
    rw [hbyte] at hlt
    simp [bit, flipBit, hbyte, hlt, Nat.mod_eq_of_lt hmask, Nat.testBit_two_pow, hsame]
  · have hne : i ≠ j := by
      intro heq
      exact hbyte (by rw [heq])
    simp [bit, flipBit, hbyte, hne]

/-- A single bit the other way is a burst. -/
theorem burst_flipBit {bs : Bytes} {i : Nat} (h : i < 8 * bs.length) :
    Burst bs (bs.flipBit i) := by
  have hdiffers : ∀ j, bs.bit j ≠ (bs.flipBit i).bit j ↔ i = j := by
    intro j
    rw [bit_flipBit h]
    cases bs.bit j <;> simp
  refine ⟨by simp [flipBit], ?_, i, ?_⟩
  · intro heq
    exact (hdiffers i).mpr rfl (by rw [← heq])
  · intro j hj
    have hij := (hdiffers j).mp hj
    omega

/-- The bytes as a number, the first one lowest. -/
def value : Bytes → Nat
  | [] => 0
  | b :: bs => b.toNat + 256 * value bs

theorem value_cons_eq_add (b : UInt8) (bs : Bytes) :
    value (b :: bs) = 2 ^ 8 * value bs + b.toNat := by
  simp only [value]
  omega

theorem value_cons (b : UInt8) (bs : Bytes) :
    value (b :: bs) = b.toNat ^^^ 2 ^ 8 * value bs := by
  apply Nat.eq_of_testBit_eq
  intro i
  rw [value_cons_eq_add, Nat.testBit_two_pow_mul_add _ b.toNat_lt, Nat.testBit_xor,
    Nat.testBit_two_pow_mul]
  split
  · have hlow : ¬ 8 ≤ i := by omega
    simp [hlow]
  · have hpow : 2 ^ 8 ≤ 2 ^ i := Nat.pow_le_pow_right (by decide) (by omega)
    have hhigh : b.toNat.testBit i = false :=
      Nat.testBit_lt_two_pow (Nat.lt_of_lt_of_le b.toNat_lt hpow)
    have hi : 8 ≤ i := by omega
    simp [hhigh, hi]

theorem testBit_value (bs : Bytes) (i : Nat) : bs.value.testBit i = bs.bit i := by
  induction bs generalizing i with
  | nil => simp [value, bit]
  | cons b bs ih =>
    rw [value_cons_eq_add, Nat.testBit_two_pow_mul_add _ b.toNat_lt]
    split
    · have hdiv : i / 8 = 0 := by omega
      have hmod : i % 8 = i := by omega
      simp [bit, hdiv, hmod]
    · have hdiv : i / 8 = (i - 8) / 8 + 1 := by omega
      have hmod : i % 8 = (i - 8) % 8 := by omega
      simp [bit, hdiv, hmod, ih]

theorem value_lt (bs : Bytes) : bs.value < 2 ^ (8 * bs.length) := by
  induction bs with
  | nil => simp [value]
  | cons b bs ih =>
    have hb := b.toNat_lt
    have hpow : 2 ^ (8 * (b :: bs).length) = 256 * 2 ^ (8 * bs.length) := by
      rw [List.length_cons, Nat.mul_succ, Nat.pow_add, Nat.mul_comm]
    simp only [value, hpow]
    omega

theorem eq_of_value_eq {as bs : Bytes} (hl : as.length = bs.length) (h : as.value = bs.value) :
    as = bs := by
  induction as generalizing bs with
  | nil => exact (List.length_eq_zero_iff.mp hl.symm).symm
  | cons a as ih =>
    cases bs with
    | nil => simp at hl
    | cons b bs =>
      have ha := a.toNat_lt
      have hb := b.toNat_lt
      simp only [value] at h
      have hhead : a = b := UInt8.toNat_inj.mp (by omega)
      have htail : as = bs := ih (Nat.succ.inj hl) (by omega)
      rw [hhead, htail]

/-- What two strings that differ by a burst differ in, as a number: one of at most 32 bits, moved up
to where the burst is. -/
theorem Burst.value_xor {sent received : Bytes} (h : Burst sent received) :
    ∃ start width, sent.value ^^^ received.value = 2 ^ start * width ∧ width ≠ 0 ∧
      width < 2 ^ 32 ∧ start ≤ 8 * sent.length := by
  obtain ⟨start, hwithin⟩ := h.within
  let d := sent.value ^^^ received.value
  have hbit : ∀ i, d.testBit i = true → start ≤ i ∧ i < start + 32 := by
    intro i hi
    apply hwithin
    simp only [d, Nat.testBit_xor, testBit_value] at hi
    simpa using hi
  have hd : d = 2 ^ start * (d / 2 ^ start) := by
    apply Nat.eq_of_testBit_eq
    intro i
    rw [Nat.testBit_two_pow_mul, Nat.testBit_div_two_pow]
    by_cases hi : start ≤ i
    · simp [hi]
    · have hlow : d.testBit i ≠ true := fun htrue => hi (hbit i htrue).1
      simp [hi, hlow]
  have hwidth : d / 2 ^ start ≠ 0 := by
    intro hzero
    have hd0 : d = 0 := by rw [hd, hzero, Nat.mul_zero]
    have hvalue : sent.value = received.value := by simpa [d] using hd0
    exact h.ne (eq_of_value_eq h.length_eq.symm hvalue)
  have hlt : d / 2 ^ start < 2 ^ 32 := by
    apply Nat.lt_pow_two_of_testBit
    intro i hi
    rw [Nat.testBit_div_two_pow]
    have hhigh : d.testBit (i + start) ≠ true := by
      intro htrue
      have hend := (hbit _ htrue).2
      omega
    simpa using hhigh
  have hstart : start ≤ 8 * sent.length := by
    have hdlt : d < 2 ^ (8 * sent.length) := by
      apply Nat.xor_lt_two_pow sent.value_lt
      rw [← h.length_eq]
      exact received.value_lt
    have hle : 2 ^ start ≤ d := Nat.div_ne_zero_iff.mp hwidth |>.2
    exact Nat.le_of_lt ((Nat.pow_lt_pow_iff_right (by decide)).mp (Nat.lt_of_le_of_lt hle hdlt))
  exact ⟨start, d / 2 ^ start, hd, hwidth, hlt, hstart⟩

end Bytes

namespace Checksum

/-- `shift` on numbers, of any size. -/
def step (n : Nat) : Nat :=
  if n % 2 = 1 then n / 2 ^^^ 0xEDB88320 else n / 2

theorem toNat_shift (r : UInt32) : (shift r).toNat = step r.toNat := by
  have hodd : r &&& 1 = 1 ↔ r.toNat % 2 = 1 := by
    rw [← UInt32.toNat_inj, UInt32.toNat_and]
    simp
  unfold shift step
  simp only [hodd]
  split <;> simp [Nat.shiftRight_eq_div_pow]

theorem xor_cancel_right (m n p : Nat) : m ^^^ p ^^^ (n ^^^ p) = m ^^^ n := by
  rw [Nat.xor_comm n p, Nat.xor_assoc, ← Nat.xor_assoc p p n, Nat.xor_self, Nat.zero_xor]

theorem step_xor (m n : Nat) : step (m ^^^ n) = step m ^^^ step n := by
  have hmod : (m ^^^ n) % 2 = (m + n) % 2 := Nat.xor_mod_two_eq
  unfold step
  rw [hmod, Nat.xor_div_two]
  rcases Nat.mod_two_eq_zero_or_one m with hm | hm <;>
    rcases Nat.mod_two_eq_zero_or_one n with hn | hn
  · simp [Nat.add_mod, hm, hn]
  · simp [Nat.add_mod, hm, hn, Nat.xor_assoc]
  · simp [Nat.add_mod, hm, hn, Nat.xor_right_comm]
  · -- the polynomial is added twice, which is as if it were not added
    simp [Nat.add_mod, hm, hn, xor_cancel_right]

theorem iterate_step_xor (k m n : Nat) : step^[k] (m ^^^ n) = step^[k] m ^^^ step^[k] n := by
  have h : Function.Semiconj₂ step (· ^^^ ·) (· ^^^ ·) := step_xor
  exact h.iterate k m n

theorem iterate_step_two_pow_mul (k n : Nat) : step^[k] (2 ^ k * n) = n := by
  induction k with
  | zero => simp
  | succ k ih =>
    have hstep : step (2 ^ (k + 1) * n) = 2 ^ k * n := by
      have hdouble : 2 ^ (k + 1) * n = 2 * (2 ^ k * n) := by
        rw [Nat.pow_succ', Nat.mul_assoc]
      simp [step, hdouble]
    rw [Function.iterate_succ_apply, hstep, ih]

theorem step_lt {n : Nat} (h : n < 2 ^ 32) : step n < 2 ^ 32 := by
  have hhalf : n / 2 < 2 ^ 32 := by omega
  unfold step
  split
  · exact Nat.xor_lt_two_pow hhalf (by decide)
  · exact hhalf

theorem step_ne_zero {n : Nat} (h : n < 2 ^ 32) (hn : n ≠ 0) : step n ≠ 0 := by
  unfold step
  split
  · intro hzero
    have heq : n / 2 = 0xEDB88320 := by simpa using hzero
    omega
  · omega

theorem iterate_step_ne_zero {n : Nat} (h : n < 2 ^ 32) (hn : n ≠ 0) (k : Nat) :
    step^[k] n ≠ 0 := by
  have hboth : step^[k] n < 2 ^ 32 ∧ step^[k] n ≠ 0 := by
    induction k with
    | zero => exact ⟨h, hn⟩
    | succ k ih =>
      rw [Function.iterate_succ_apply']
      exact ⟨step_lt ih.1, step_ne_zero ih.1 ih.2⟩
  exact hboth.2

theorem toNat_feed (r : UInt32) (b : UInt8) :
    (feed r b).toNat = step^[8] (r.toNat ^^^ b.toNat) := by
  have hshifts : Function.Semiconj UInt32.toNat shift step := toNat_shift
  have h := (hshifts.iterate_right 8) (r ^^^ b.toUInt32)
  rw [UInt32.toNat_xor, UInt8.toNat_toUInt32] at h
  exact h

/-- The register after a byte string, as what its shifts make of the string. -/
theorem toNat_run (r : UInt32) (bs : Bytes) :
    (run r bs).toNat = step^[8 * bs.length] (r.toNat ^^^ Bytes.value bs) := by
  induction bs generalizing r with
  | nil => simp [Bytes.value]
  | cons b bs ih =>
    calc (run r (b :: bs)).toNat
        = step^[8 * bs.length] ((feed r b).toNat ^^^ Bytes.value bs) := ih (feed r b)
      _ = step^[8 * bs.length] (step^[8] (r.toNat ^^^ b.toNat ^^^ 2 ^ 8 * Bytes.value bs)) := by
          rw [iterate_step_xor 8, iterate_step_two_pow_mul, toNat_feed]
      _ = step^[8 * (b :: bs).length] (r.toNat ^^^ Bytes.value (b :: bs)) := by
          rw [Nat.xor_assoc, ← Bytes.value_cons, ← Function.iterate_add_apply]
          rfl

theorem run_ne_of_burst {sent received : Bytes} (h : Bytes.Burst sent received) (r : UInt32) :
    run r sent ≠ run r received := by
  obtain ⟨start, width, hxor, hwidth, hlt, hstart⟩ := h.value_xor
  intro heq
  let n := 8 * sent.length
  have hsent : (run r sent).toNat = step^[n] (r.toNat ^^^ Bytes.value sent) := toNat_run r sent
  have hreceived : (run r received).toNat = step^[n] (r.toNat ^^^ Bytes.value received) := by
    rw [toNat_run, h.length_eq]
  have hdifference :
      step^[n] (r.toNat ^^^ Bytes.value sent) ^^^ step^[n] (r.toNat ^^^ Bytes.value received) =
        step^[n - start] width := by
    have hcancel : r.toNat ^^^ Bytes.value sent ^^^ (r.toNat ^^^ Bytes.value received) =
        2 ^ start * width := by
      rw [Nat.xor_comm r.toNat, Nat.xor_comm r.toNat, xor_cancel_right, hxor]
    have hsplit : n = (n - start) + start := (Nat.sub_add_cancel hstart).symm
    rw [← iterate_step_xor, hcancel]
    conv_lhs => rw [hsplit, Function.iterate_add_apply, iterate_step_two_pow_mul]
  rw [← hsent, ← hreceived, heq, Nat.xor_self] at hdifference
  exact iterate_step_ne_zero hlt hwidth (n - start) hdifference.symm

theorem crc32_ne_of_burst {sent received : Bytes} (h : Bytes.Burst sent received) :
    crc32 received ≠ crc32 sent := by
  intro heq
  have hrun : run 0xFFFFFFFF sent = run 0xFFFFFFFF received := by
    simpa [crc32] using heq.symm
  exact run_ne_of_burst h _ hrun

end Checksum

end Courier
