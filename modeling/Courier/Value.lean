namespace Courier

inductive Value where
  | null
  | boolean (b : Bool)
  | integer (n : Int)
  /-- A number that is written with a fraction or an exponent. -/
  | float
  | text (s : String)
  /-- A date, a time, or both. -/
  | moment
  | list (items : List Value)
  | table (entries : List (String × Value))
  deriving Inhabited

namespace Value

def text? : Value → Option String
  | .text s => some s
  | _ => none

def boolean? : Value → Option Bool
  | .boolean b => some b
  | _ => none

/-- An integer that is at least zero and below `bound`. -/
def natural? (bound : Nat) : Value → Option Nat
  | .integer (.ofNat n) => if n < bound then some n else none
  | _ => none

/-- The value under a key, of a table that has the key. -/
def field? (key : String) : Value → Option Value
  | .table entries => entries.lookup key
  | _ => none

end Value

end Courier
