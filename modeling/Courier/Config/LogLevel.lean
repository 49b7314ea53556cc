import Courier.Text.Decimal

namespace Courier

inductive LogLevel where
  | error
  | warn
  | info
  | debug
  | trace
  deriving DecidableEq

namespace LogLevel

/-- From the fewest messages to the most; numerals count in this order. -/
def all : List LogLevel := [.error, .warn, .info, .debug, .trace]

def word : LogLevel → String
  | .error => "error"
  | .warn => "warn"
  | .info => "info"
  | .debug => "debug"
  | .trace => "trace"

def ofNumber? : Nat → Option LogLevel
  | 0 => none
  | n + 1 => all[n]?

/-- Letters are compared without case; only ASCII letters have one. -/
def ofWord? (cs : List Char) : Option LogLevel :=
  all.find? fun level => level.word.toList = cs.map Char.toLower

def ofText? (text : String) : Option LogLevel :=
  match Text.Decimal.parse Text.Decimal.maxWord64 text.toList with
  | .ok n => ofNumber? n
  | .error _ => ofWord? text.toList

theorem ofText?_word (level : LogLevel) : ofText? level.word = some level := by
  cases level <;> decide +kernel

end LogLevel

end Courier
