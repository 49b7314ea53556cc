/-!
Unsigned decimal numerals with an upper bound. A leading plus sign is allowed. The characters are
read in order, and the first that is no digit, or that takes the value past the bound, decides
which failure it is.
-/

namespace Courier.Text.Decimal

inductive ParseError where
  | empty
  | invalidDigit
  | tooLarge
  deriving DecidableEq

def ParseError.message : ParseError → String
  | .empty => "cannot parse integer from empty string"
  | .invalidDigit => "invalid digit found in string"
  | .tooLarge => "number too large to fit in target type"

def digit? (c : Char) : Option Nat :=
  if '0' ≤ c ∧ c ≤ '9' then some (c.toNat - '0'.toNat) else none

/-- Goes on from the value `acc` of the digits read so far. -/
def digits (bound : Nat) (acc : Nat) : List Char → Except ParseError Nat
  | [] => .ok acc
  | c :: cs =>
    match digit? c with
    | none => .error .invalidDigit
    | some d => if acc * 10 + d ≤ bound then digits bound (acc * 10 + d) cs else .error .tooLarge

/-- The value of a numeral that is at most `bound`. -/
def parse (bound : Nat) : List Char → Except ParseError Nat
  | [] => .error .empty
  | ['+'] => .error .invalidDigit
  | '+' :: cs => digits bound 0 cs
  | cs => digits bound 0 cs

def maxWord16 : Nat := UInt16.size - 1

def maxWord32 : Nat := UInt32.size - 1

def maxWord64 : Nat := UInt64.size - 1

/-- Whether a text is a 16-bit numeral. -/
def isWord16 (cs : List Char) : Bool :=
  (parse maxWord16 cs).isOk

end Courier.Text.Decimal
