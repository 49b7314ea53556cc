import Courier.Text.Utf8
import Courier.Wire.Name

namespace Courier.Path

/-- The parts between slashes; `n` slashes make `n + 1` parts. -/
def split : Bytes → List Bytes
  | [] => [[]]
  | b :: bs =>
    if b = 0x2F then [] :: split bs
    else
      match split bs with
      | part :: parts => (b :: part) :: parts
      | [] => [[b]]

/-- The parts that name something: neither empty nor a single dot. -/
def segments (path : Bytes) : List Bytes :=
  (split path).filter fun s => s ≠ [] ∧ s ≠ [0x2E]

def isAbsolute (path : Bytes) : Bool :=
  path.head? = some 0x2F

/-- A path whose first part is a single dot. -/
def startsHere (path : Bytes) : Bool :=
  (split path).head? = some [0x2E]

/-- Two paths lead to one file when they start alike and have the same segments, however many
slashes part them or follow the last one. -/
def same (p q : Bytes) : Bool :=
  isAbsolute p = isAbsolute q ∧ startsHere p = startsHere q ∧ segments p = segments q

/-- The last segment, unless it is two dots. -/
def fileName? (path : Bytes) : Option Bytes :=
  (segments path).getLast?.filter (· ≠ [0x2E, 0x2E])

/-- The name under which the file at `path` is uploaded. -/
def wireName (path : Bytes) : Except TransferError Name :=
  match (fileName? path).bind Text.Utf8.decode? with
  | none => .error .noFileName
  | some cs => Name.ofText (String.ofList cs)

end Courier.Path
