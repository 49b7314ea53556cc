import Courier.Bytes

namespace Courier

/-- Counters of what a client did, modulo `2 ^ 64`. -/
@[ext] structure Metrics where
  roundTripsTotal : UInt64
  roundTripsFailed : UInt64
  framesSent : UInt64
  framesReceived : UInt64
  bytesSent : UInt64
  bytesReceived : UInt64
  keysInstalled : UInt64
  uploadAttempts : UInt64
  crcMismatches : UInt64
  transfersCompleted : UInt64
  transfersAbandoned : UInt64
  deriving DecidableEq

namespace Metrics

def zero : Metrics := ⟨0, 0, 0, 0, 0, 0, 0, 0, 0, 0, 0⟩

instance : Inhabited Metrics := ⟨zero⟩

/-- A connection was asked for. -/
def roundTripStarted (m : Metrics) : Metrics :=
  { m with roundTripsTotal := m.roundTripsTotal + 1 }

def roundTripFailed (m : Metrics) : Metrics :=
  { m with roundTripsFailed := m.roundTripsFailed + 1 }

/-- A message went out; `bytes` leaves out the padding. -/
def messageSent (m : Metrics) (frames bytes : Nat) : Metrics :=
  { m with
    framesSent := m.framesSent + UInt64.ofNat frames
    bytesSent := m.bytesSent + UInt64.ofNat bytes }

/-- A message came in; `bytes` leaves out the padding. -/
def messageReceived (m : Metrics) (frames bytes : Nat) : Metrics :=
  { m with
    framesReceived := m.framesReceived + UInt64.ofNat frames
    bytesReceived := m.bytesReceived + UInt64.ofNat bytes }

def keyInstalled (m : Metrics) : Metrics :=
  { m with keysInstalled := m.keysInstalled + 1 }

def uploadAttempt (m : Metrics) : Metrics :=
  { m with uploadAttempts := m.uploadAttempts + 1 }

def crcMismatch (m : Metrics) : Metrics :=
  { m with crcMismatches := m.crcMismatches + 1 }

def transferCompleted (m : Metrics) : Metrics :=
  { m with transfersCompleted := m.transfersCompleted + 1 }

def transferAbandoned (m : Metrics) : Metrics :=
  { m with transfersAbandoned := m.transfersAbandoned + 1 }

/-- The counters under their names. -/
def counters (m : Metrics) : List (String × UInt64) :=
  [("round_trips_total", m.roundTripsTotal), ("round_trips_failed", m.roundTripsFailed),
    ("frames_sent", m.framesSent), ("frames_received", m.framesReceived),
    ("bytes_sent", m.bytesSent), ("bytes_received", m.bytesReceived),
    ("keys_installed", m.keysInstalled), ("upload_attempts", m.uploadAttempts),
    ("crc_mismatches", m.crcMismatches), ("transfers_completed", m.transfersCompleted),
    ("transfers_abandoned", m.transfersAbandoned)]

end Metrics

end Courier
