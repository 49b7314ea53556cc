import Courier.Bytes

/-!
UTF-8. Reading goes byte by byte through `step`; a byte that cannot continue the character begun
closes it as broken and starts over. So a broken stretch yields one mark for each longest part that
could still have begun a character.
-/

namespace Courier.Text.Utf8

/-- A character begun: how many bytes it still needs, the value so far, and the range in which the
next byte has to lie. -/
structure Begun where
  missing : Nat
  value : Nat
  low : Nat
  high : Nat
  deriving DecidableEq

/-- What the first byte of a character leads to. -/
inductive Lead where
  | char (c : Char)
  | begun (b : Begun)
  | broken

/-- The second byte is narrowed after `E0`, `ED`, `F0` and `F4`: no overlong form, no surrogate,
nothing past `10FFFF`. -/
def lead (b : UInt8) : Lead :=
  let n := b.toNat
  if n < 0x80 then .char (Char.ofNat n)
  else if n < 0xC2 then .broken
  else if n < 0xE0 then .begun ⟨1, n - 0xC0, 0x80, 0xBF⟩
  else if n = 0xE0 then .begun ⟨2, 0, 0xA0, 0xBF⟩
  else if n = 0xED then .begun ⟨2, 0xD, 0x80, 0x9F⟩
  else if n < 0xF0 then .begun ⟨2, n - 0xE0, 0x80, 0xBF⟩
  else if n = 0xF0 then .begun ⟨3, 0, 0x90, 0xBF⟩
  else if n < 0xF4 then .begun ⟨3, n - 0xF0, 0x80, 0xBF⟩
  else if n = 0xF4 then .begun ⟨3, 4, 0x80, 0x8F⟩
  else .broken

/-- The first byte of a character: what it completes at once, and what is begun after it. -/
def start (b : UInt8) : List (Option Char) × Option Begun :=
  match lead b with
  | .char c => ([some c], none)
  | .begun p => ([], some p)
  | .broken => ([none], none)

/-- One byte: the characters (`none` for a broken one) that end with it, and what is begun then. -/
def step (s : Option Begun) (b : UInt8) : List (Option Char) × Option Begun :=
  match s with
  | none => start b
  | some p =>
    if p.low ≤ b.toNat ∧ b.toNat ≤ p.high then
      let value := p.value * 64 + (b.toNat - 0x80)
      if p.missing ≤ 1 then ([some (Char.ofNat value)], none)
      else ([], some ⟨p.missing - 1, value, 0x80, 0xBF⟩)
    else (none :: (start b).1, (start b).2)

/-- The characters of a byte string, `none` for each broken stretch. -/
def scan : Option Begun → Bytes → List (Option Char)
  | none, [] => []
  | some _, [] => [none]
  | s, b :: bs => (step s b).1 ++ scan (step s b).2 bs

/-- The mark in the place of a broken stretch. -/
def replacement : Char := '\uFFFD'

/-- Reads any byte string, with a replacement character for each broken stretch. -/
def decodeLossy (bs : Bytes) : List Char :=
  (scan none bs).map (·.getD replacement)

/-- Reads a byte string that is UTF-8 throughout. -/
def decode? (bs : Bytes) : Option (List Char) :=
  (scan none bs).mapM id

def encode (cs : List Char) : Bytes :=
  cs.flatMap String.utf8EncodeChar

/-- The bytes of a text. -/
def bytes (s : String) : Bytes :=
  encode s.toList

@[simp] theorem encode_nil : encode [] = [] := rfl

@[simp] theorem encode_cons (c : Char) (cs : List Char) :
    encode (c :: cs) = String.utf8EncodeChar c ++ encode cs := by
  simp [encode]

@[simp] theorem encode_append (as bs : List Char) : encode (as ++ bs) = encode as ++ encode bs := by
  simp [encode]

end Courier.Text.Utf8
