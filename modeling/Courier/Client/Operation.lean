import Courier.Client.Identity
import Courier.Client.SessionKey
import Courier.Client.Transfer

namespace Courier

inductive Operation where
  | restore
  | register (username : String)
  | exchangeKeys
  | reconnect
  | transfer (path : Bytes)
  | uploadOnce (file : Name) (content : Bytes)
  | giveUp (file : Name)
  deriving DecidableEq

inductive Reply where
  | id (id : ClientId)
  | done
  | delivery (delivery : Delivery)
  | receipt (receipt : Receipt)
  deriving DecidableEq

namespace Client

variable {ω : Type}

def perform (env : Environment ω) : Operation → Action (Client ω) Reply
  | .restore => Reply.id <$> restore env
  | .register username => Reply.id <$> register env username
  | .exchangeKeys => (fun _ => Reply.done) <$> exchangeKeys env
  | .reconnect => (fun _ => Reply.done) <$> reconnect env
  | .transfer path => Reply.delivery <$> transfer env path
  | .uploadOnce file content => Reply.receipt <$> uploadOnce env file content
  | .giveUp file => (fun _ => Reply.done) <$> giveUp env file

end Client

end Courier
