import Courier.Error
import Courier.Text.Decimal

namespace Courier.Address

open Text

/-- What stands before and after the last `c`. -/
def splitLast (c : Char) : List Char → Option (List Char × List Char)
  | [] => none
  | x :: xs =>
    match splitLast c xs with
    | some (before, after) => some (x :: before, after)
    | none => if x = c then some ([], xs) else none

/-- Whether an address has a host and a 16-bit port. -/
def isValid (address : String) : Bool :=
  match splitLast ':' address.toList with
  | some (host, port) => !host.isEmpty && Decimal.isWord16 port
  | none => false

/-- Why an address cannot be dialled, where that shows before any look-up. -/
def fault? (address : String) : Option TransferError :=
  match splitLast ':' address.toList with
  | none => some (.connectFailed address "invalid socket address")
  | some (_, port) =>
    if Decimal.isWord16 port then none else some (.connectFailed address "invalid port value")

end Courier.Address
