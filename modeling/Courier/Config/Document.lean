import Courier.Config.Record
import Courier.Error
import Courier.Text.Utf8
import Courier.Toml.Document

namespace Courier.Config

def ofToml (text : String) : Except ConfigFault Config :=
  match Toml.parse? text with
  | some v => ofValue v
  | none => .error .malformed

/-- Why no configuration comes out of a file. -/
inductive FileFault where
  | unreadable (error : TransferError)
  | document (fault : ConfigFault)
  deriving DecidableEq

def FileFault.missing : FileFault :=
  .unreadable (.config "Failed to open config file: No such file or directory (os error 2)")

def FileFault.notText : FileFault :=
  .unreadable (.config "Failed to read config file: stream did not contain valid UTF-8")

/-- Reads a file, given by its content if it exists. -/
def ofFile (content : Option Bytes) : Except FileFault Config :=
  match content with
  | none => .error .missing
  | some bytes =>
    match Text.Utf8.decode? bytes with
    | none => .error .notText
    | some cs => (ofToml (String.ofList cs)).mapError .document

/-- A document that sets every field to its default. -/
def exampleDocument : String :=
  "\n".intercalate ["[client]", "address = \"127.0.0.1:1234\"", "connection_timeout = 5000",
    "operation_timeout = 10000", "response_timeout = 30000", "max_crc_retries = 3", "",
    "[logging]", "app_name = \"secure-transfer\"", "log_level = \"info\"", "json_format = false", ""]

end Courier.Config
