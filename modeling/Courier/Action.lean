import Courier.Error

namespace Courier

inductive Stop where
  | failed (error : TransferError)
  | hung
  deriving DecidableEq

/-- A step on a state. The state is kept as it was left, however the step ended. -/
abbrev Action (σ α : Type) := EStateM Stop σ α

namespace Action

variable {σ α : Type}

def fail (e : TransferError) : Action σ α :=
  fun s => .error (.failed e) s

def ofExcept (x : Except TransferError α) : Action σ α :=
  fun s =>
    match x with
    | .ok a => .ok a s
    | .error e => .error (.failed e) s

/-- Hands a failure on as a value. A step that hangs is never caught. -/
def attempt (x : Action σ α) : Action σ (Except TransferError α) :=
  fun s =>
    match x s with
    | .ok a t => .ok (.ok a) t
    | .error (.failed e) t => .ok (.error e) t
    | .error .hung t => .error .hung t

end Action

end Courier
