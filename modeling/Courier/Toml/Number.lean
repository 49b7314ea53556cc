import Courier.Toml.Quoted
import Courier.Value

/-!
Numbers. Underscores may stand between digits. An integer has 64 bits with a sign; only a decimal
one takes a sign, and it has no leading zero. Of a float only its form matters, and that it is not
too large for a binary64 number.
-/

namespace Courier.Toml

open Courier.Toml.Parser

/-- Digits, single underscores between them. -/
def digitRun (p : Char → Bool) : Parser (List Char) := do
  let d ← satisfy p
  let ds ← many (do let _ ← maybe (char '_'); satisfy p)
  return d :: ds

def ofDigits (base : Nat) (ds : List Char) : Nat :=
  ds.foldl (fun n c => n * base + (hexValue? c).getD 0) 0

/-- Whether a minus sign stands here; a plus sign is taken too. -/
def sign : Parser Bool := do
  match ← peek with
  | some '-' => char '-'; return true
  | some '+' => char '+'; return false
  | _ => return false

/-- A decimal without a leading zero. -/
def decimalDigits : Parser (List Char) := do
  match ← peek with
  | some '0' => char '0'; return ['0']
  | _ => digitRun isDigit

def maxInteger : Nat := 0x7FFFFFFFFFFFFFFF

def decimal : Parser Value := do
  let negative ← sign
  let n := ofDigits 10 (← decimalDigits)
  if negative then
    if n ≤ maxInteger + 1 then return .integer (-(n : Int)) else failure
  else if n ≤ maxInteger then return .integer n
  else failure

/-- An integer in a base that two characters announce. -/
def based (mark : String) (base : Nat) : Parser Value := do
  literal mark
  let n := ofDigits base (← digitRun fun c => (hexValue? c).any (· < base))
  if n ≤ maxInteger then return .integer n else failure

def integer : Parser Value :=
  based "0x" 16 <|> based "0o" 8 <|> based "0b" 2 <|> decimal

/-- The least value that rounds past the largest binary64 number. -/
def floatLimit : Nat := Nat.pow 2 1024 - Nat.pow 2 970

/-- Whether `digits * 10 ^ exponent` is too large. Far from the limit the number of digits tells. -/
def overflows (digits : Nat) (exponent : Int) : Bool :=
  if digits = 0 then false
  else
    let places : Int := (Nat.toDigits 10 digits).length + exponent
    if places < 300 then false
    else if places > 320 then true
    else if 0 ≤ exponent then decide (floatLimit ≤ digits * Nat.pow 10 exponent.toNat)
    else decide (floatLimit * Nat.pow 10 (-exponent).toNat ≤ digits)

def fraction : Parser (List Char) := do
  char '.'
  digitRun isDigit

def exponent : Parser Int := do
  let _ ← satisfy fun c => c == 'e' || c == 'E'
  let negative ← sign
  let n := ofDigits 10 (← digitRun isDigit)
  return if negative then -(n : Int) else n

/-- A negative float is never too large. -/
def float : Parser Value := do
  let negative ← sign
  let whole ← decimalDigits
  let places ← maybe fraction
  let power ← maybe exponent
  if places.isNone && power.isNone then failure
  let digits := ofDigits 10 (whole ++ places.getD [])
  if !negative && overflows digits (power.getD 0 - (places.getD []).length) then failure
  return .float

/-- Infinity or no number. -/
def special : Parser Value := do
  let _ ← sign
  literal "inf" <|> literal "nan"
  return .float

/-- Exactly `n` digits whose value lies between two bounds. -/
def digitsIn (n low high : Nat) : Parser Nat := do
  let ds ← (List.replicate n ()).mapM fun _ => satisfy isDigit
  let value := ofDigits 10 ds
  if low ≤ value && value ≤ high then return value else failure

def daysIn (year month : Nat) : Nat :=
  if month = 2 then
    if year % 4 = 0 && (year % 100 != 0 || year % 400 = 0) then 29 else 28
  else if month = 4 || month = 6 || month = 9 || month = 11 then 30
  else 31

def date : Parser Unit := do
  let year ← digitsIn 4 0 9999
  char '-'
  let month ← digitsIn 2 1 12
  char '-'
  let _ ← digitsIn 2 1 (daysIn year month)

/-- A time of day; a sixtieth second can be written. -/
def time : Parser Unit := do
  let _ ← digitsIn 2 0 23
  char ':'
  let _ ← digitsIn 2 0 59
  char ':'
  let _ ← digitsIn 2 0 60
  let _ ← maybe (do char '.'; let _ ← satisfy isDigit; takeWhile isDigit)

def offset : Parser Unit := do
  match ← satisfy fun c => c == 'Z' || c == 'z' || c == '+' || c == '-' with
  | 'Z' | 'z' => return
  | _ =>
    let _ ← digitsIn 2 0 23
    char ':'
    let _ ← digitsIn 2 0 59

def moment : Parser Value :=
  (do
    date
    let _ ← maybe do
      let _ ← satisfy fun c => c == 'T' || c == 't' || c == ' '
      time
      maybe offset
    return .moment)
  <|> (do time; return .moment)

/-- Whatever begins with a sign or a digit. -/
def number : Parser Value :=
  moment <|> float <|> special <|> integer

end Courier.Toml
