import Courier.Error

namespace Courier.Frame

def size : Nat := 1024

/-- How many frames carry `n` bytes. -/
def count (n : Nat) : Nat :=
  (n + (size - 1)) / size

/-- Cuts a message into `n` chunks of a frame's size, the last one with what is left. -/
def cut : Nat → Bytes → List Bytes
  | 0, _ => []
  | n + 1, bs => bs.take size :: cut n (bs.drop size)

/-- The chunks of a message. -/
def chunks (bs : Bytes) : List Bytes :=
  cut (count bs.length) bs

/-- A chunk as a whole frame. -/
def pad (chunk : Bytes) : Bytes :=
  Bytes.padTo size chunk

/-- Appends a frame with `chunk` to a buffer. -/
def encode (chunk buffer : Bytes) : Except TransferError Bytes :=
  if chunk.length > size then
    .error (.writeFailed s!"chunk of {chunk.length} bytes exceeds frame size {size}")
  else .ok (buffer ++ pad chunk)

/-- Takes a whole frame off a buffer, if it holds one. -/
def decode (buffer : Bytes) : Option Bytes × Bytes :=
  if buffer.length < size then (none, buffer) else (some (buffer.take size), buffer.drop size)

/-- Takes the next frame off a buffer that will not grow: at the end a short one. -/
def decodeEnd (buffer : Bytes) : Option Bytes × Bytes :=
  if buffer = [] then (none, [])
  else (some (buffer.take size), buffer.drop size)

theorem length_pad {chunk : Bytes} (h : chunk.length ≤ size) : (pad chunk).length = size :=
  Bytes.length_padTo h

end Courier.Frame
