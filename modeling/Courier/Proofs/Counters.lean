import Courier.Metrics
import Mathlib.Algebra.GroupWithZero.Nat

namespace Courier.Metrics

instance : Add Metrics where
  add m n := {
    roundTripsTotal := m.roundTripsTotal + n.roundTripsTotal
    roundTripsFailed := m.roundTripsFailed + n.roundTripsFailed
    framesSent := m.framesSent + n.framesSent
    framesReceived := m.framesReceived + n.framesReceived
    bytesSent := m.bytesSent + n.bytesSent
    bytesReceived := m.bytesReceived + n.bytesReceived
    keysInstalled := m.keysInstalled + n.keysInstalled
    uploadAttempts := m.uploadAttempts + n.uploadAttempts
    crcMismatches := m.crcMismatches + n.crcMismatches
    transfersCompleted := m.transfersCompleted + n.transfersCompleted
    transfersAbandoned := m.transfersAbandoned + n.transfersAbandoned }

instance : Zero Metrics where
  zero := zero

protected theorem add_assoc (l m n : Metrics) : l + m + n = l + (m + n) := by
  apply Metrics.ext <;> exact UInt64.add_assoc _ _ _

protected theorem add_comm (m n : Metrics) : m + n = n + m := by
  apply Metrics.ext <;> exact UInt64.add_comm _ _

@[simp] protected theorem add_zero (m : Metrics) : m + 0 = m := by
  apply Metrics.ext <;> exact UInt64.add_zero _

@[simp] protected theorem zero_add (m : Metrics) : 0 + m = m := by
  rw [Metrics.add_comm, Metrics.add_zero]

instance : Std.Associative (α := Metrics) (· + ·) := ⟨Metrics.add_assoc⟩

instance : Std.Commutative (α := Metrics) (· + ·) := ⟨Metrics.add_comm⟩

instance : Std.LawfulIdentity (α := Metrics) (· + ·) 0 where
  left_id := Metrics.zero_add
  right_id := Metrics.add_zero

theorem add_def (m n : Metrics) : m + n =
    ⟨m.roundTripsTotal + n.roundTripsTotal, m.roundTripsFailed + n.roundTripsFailed,
      m.framesSent + n.framesSent, m.framesReceived + n.framesReceived, m.bytesSent + n.bytesSent,
      m.bytesReceived + n.bytesReceived, m.keysInstalled + n.keysInstalled,
      m.uploadAttempts + n.uploadAttempts, m.crcMismatches + n.crcMismatches,
      m.transfersCompleted + n.transfersCompleted, m.transfersAbandoned + n.transfersAbandoned⟩ :=
  rfl

theorem zero_def : (0 : Metrics) = ⟨0, 0, 0, 0, 0, 0, 0, 0, 0, 0, 0⟩ :=
  rfl

section Steps

variable (m : Metrics)

theorem roundTripStarted_eq : m.roundTripStarted = m + (0 : Metrics).roundTripStarted := by
  simp [roundTripStarted, add_def, zero_def]

theorem roundTripFailed_eq : m.roundTripFailed = m + (0 : Metrics).roundTripFailed := by
  simp [roundTripFailed, add_def, zero_def]

theorem messageSent_eq (frames bytes : Nat) :
    m.messageSent frames bytes = m + (0 : Metrics).messageSent frames bytes := by
  simp [messageSent, add_def, zero_def]

theorem messageReceived_eq (frames bytes : Nat) :
    m.messageReceived frames bytes = m + (0 : Metrics).messageReceived frames bytes := by
  simp [messageReceived, add_def, zero_def]

theorem keyInstalled_eq : m.keyInstalled = m + (0 : Metrics).keyInstalled := by
  simp [keyInstalled, add_def, zero_def]

theorem uploadAttempt_eq : m.uploadAttempt = m + (0 : Metrics).uploadAttempt := by
  simp [uploadAttempt, add_def, zero_def]

theorem crcMismatch_eq : m.crcMismatch = m + (0 : Metrics).crcMismatch := by
  simp [crcMismatch, add_def, zero_def]

theorem transferCompleted_eq : m.transferCompleted = m + (0 : Metrics).transferCompleted := by
  simp [transferCompleted, add_def, zero_def]

theorem transferAbandoned_eq : m.transferAbandoned = m + (0 : Metrics).transferAbandoned := by
  simp [transferAbandoned, add_def, zero_def]

end Steps

/-- The sum of a counter over a list, when each amount is known. -/
theorem counter_sum {α : Type} {counter : Metrics → UInt64} (hz : counter 0 = 0)
    (hadd : ∀ m n, counter (m + n) = counter m + counter n) {amount : α → Metrics} {n : α → Nat}
    (hn : ∀ a, counter (amount a) = .ofNat (n a)) (as : List α) :
    counter (as.map amount).sum = .ofNat (as.map n).sum := by
  induction as with
  | nil => exact hz
  | cons a as ih =>
    rw [List.map_cons, List.sum_cons, hadd, hn, ih, List.map_cons, List.sum_cons, UInt64.ofNat_add]

end Courier.Metrics
