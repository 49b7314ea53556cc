import Courier.Error

namespace Courier.Clock

/-- How a wait ends, and when. -/
inductive Waited where
  | reached (time : Nat)
  | expired (time : Nat)
  deriving DecidableEq

/-- Waits for the time `due`, unless the deadline comes before it. What is due already needs no
wait, whatever the deadline. -/
def wait (deadline : Option Nat) (now due : Nat) : Waited :=
  if due ≤ now then .reached now
  else
    match deadline with
    | some d => if d < due then .expired d else .reached due
    | none => .reached due

/-- The result of a task that is ready at `due` (`none`: never), or a timeout; and the time. -/
def within {α : Type} (timeout : Nat) (due : Option Nat) (result : Except TransferError α) :
    Except TransferError α × Nat :=
  match due with
  | none => (.error .timeout, timeout)
  | some t =>
    match wait (some timeout) 0 t with
    | .reached time => (result, time)
    | .expired time => (.error .timeout, time)

end Courier.Clock
