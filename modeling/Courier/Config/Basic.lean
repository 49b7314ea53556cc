import Courier.Config.LogLevel
import Courier.Duration

namespace Courier

@[ext] structure ClientConfig where
  address : String
  connectionTimeout : Duration
  /-- For sending one message. -/
  operationTimeout : Duration
  /-- For receiving one message. -/
  responseTimeout : Duration
  /-- Uploads after the first one, if the server's checksum differs. -/
  maxRetries : UInt32
  deriving DecidableEq

@[ext] structure LoggingConfig where
  appName : String
  level : LogLevel
  json : Bool
  deriving DecidableEq

@[ext] structure Config where
  client : ClientConfig
  logging : LoggingConfig
  deriving DecidableEq

namespace ClientConfig

def default : ClientConfig where
  address := "127.0.0.1:1234"
  connectionTimeout := .ofMillis 5000
  operationTimeout := .ofMillis 10000
  responseTimeout := .ofMillis 30000
  maxRetries := 3

instance : Inhabited ClientConfig := ⟨default⟩

end ClientConfig

namespace LoggingConfig

def default : LoggingConfig :=
  ⟨"secure-transfer", .info, false⟩

instance : Inhabited LoggingConfig := ⟨default⟩

end LoggingConfig

namespace Config

def default : Config :=
  ⟨.default, .default⟩

instance : Inhabited Config := ⟨default⟩

end Config

end Courier
