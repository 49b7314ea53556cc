import Courier.Config.Basic
import Courier.Value

/-!
Configurations as structured values. A section is a table of its fields, or a list of them in
order. What is missing keeps its default, what is unknown is passed over, and a date in the place
of a section sets nothing.
-/

namespace Courier

/-- Why a value or a document is no configuration. -/
inductive ConfigFault where
  | malformed
  | wrongType
  | unknownLevel (text : String)
  deriving DecidableEq

/-- What can be said of a fault beyond the place where it is. -/
def ConfigFault.detail? : ConfigFault → Option String
  | .unknownLevel text => some ("Invalid log level: " ++ text)
  | .malformed | .wrongType => none

namespace Config

/-- The fields of a section under their keys, each with the way a value changes the section. -/
abbrev Fields (σ : Type) := List (String × (σ → Value → Except ConfigFault σ))

/-- Reads a section on top of the one given. The first fault in the value's own order counts. -/
def readSection {σ : Type} (fields : Fields σ) (initial : σ) : Value → Except ConfigFault σ
  | .table entries =>
    entries.foldlM (fun s e =>
      match fields.lookup e.1 with
      | some set => set s e.2
      | none => .ok s) initial
  | .list items => (fields.zip items).foldlM (fun s p => p.1.2 s p.2) initial
  | .moment => .ok initial
  | _ => .error .wrongType

def typed {α : Type} (value : Option α) : Except ConfigFault α :=
  match value with
  | some a => .ok a
  | none => .error .wrongType

def readDuration (v : Value) : Except ConfigFault Duration :=
  typed ((v.natural? UInt64.size).map fun ms => .ofMillis (UInt64.ofNat ms))

def readLevel (v : Value) : Except ConfigFault LogLevel := do
  let text ← typed v.text?
  match LogLevel.ofText? text with
  | some level => return level
  | none => throw (.unknownLevel text)

def clientFields : Fields ClientConfig :=
  [("address", fun c v => do return { c with address := ← typed v.text? }),
    ("connection_timeout", fun c v => do return { c with connectionTimeout := ← readDuration v }),
    ("operation_timeout", fun c v => do return { c with operationTimeout := ← readDuration v }),
    ("response_timeout", fun c v => do return { c with responseTimeout := ← readDuration v }),
    ("max_crc_retries", fun c v => do
      return { c with maxRetries := UInt32.ofNat (← typed (v.natural? UInt32.size)) })]

def loggingFields : Fields LoggingConfig :=
  [("app_name", fun c v => do return { c with appName := ← typed v.text? }),
    ("log_level", fun c v => do return { c with level := ← readLevel v }),
    ("json_format", fun c v => do return { c with json := ← typed v.boolean? })]

def fields : Fields Config :=
  [("client", fun c v => do
      return { c with client := ← readSection clientFields ClientConfig.default v }),
    ("logging", fun c v => do
      return { c with logging := ← readSection loggingFields LoggingConfig.default v })]

def ofValue (v : Value) : Except ConfigFault Config :=
  readSection fields default v

/-- A duration is written in whole milliseconds, modulo `2 ^ 64`. -/
def durationValue (d : Duration) : Value :=
  .integer (UInt64.ofNat d.millis).toNat

def clientValue (c : ClientConfig) : Value :=
  .table [("address", .text c.address),
    ("connection_timeout", durationValue c.connectionTimeout),
    ("operation_timeout", durationValue c.operationTimeout),
    ("response_timeout", durationValue c.responseTimeout),
    ("max_crc_retries", .integer c.maxRetries.toNat)]

def loggingValue (c : LoggingConfig) : Value :=
  .table [("app_name", .text c.appName), ("log_level", .text c.level.word),
    ("json_format", .boolean c.json)]

def toValue (c : Config) : Value :=
  .table [("client", clientValue c.client), ("logging", loggingValue c.logging)]

end Config

end Courier
