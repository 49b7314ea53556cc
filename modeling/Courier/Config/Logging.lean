import Courier.Config.Basic
import Courier.Error

namespace Courier.LoggingConfig

/-- What a second set-up comes to. -/
def alreadyInstalled (c : LoggingConfig) : TransferError :=
  .config ("Failed to install subscriber for " ++ c.appName
    ++ ": a global default trace dispatcher has already been set")

end Courier.LoggingConfig
