import Courier.Client.Operation
import Courier.Proofs.Client.IdentityCourses
import Courier.Proofs.Client.KeyCourses
import Courier.Proofs.Client.TransferCourses

namespace Courier.Client

variable {ω : Type} {env : Environment ω}

/-- What comes of an operation. -/
inductive OperationCourse (retries : UInt32) (s : Session) :
    Operation → List Deed → Except Stop Reply → Prop where
  | restore {deeds : List Deed} {y : Except Stop ClientId} :
    RestoreCourse deeds y → OperationCourse retries s .restore deeds (y.map .id)
  | register {username : String} {deeds : List Deed} {y : Except Stop ClientId} :
    RegisterCourse s username deeds y →
      OperationCourse retries s (.register username) deeds (y.map .id)
  | exchangeKeys {deeds : List Deed} {y : Except Stop Unit} :
    ExchangeCourse s deeds y → OperationCourse retries s .exchangeKeys deeds (y.map fun _ => .done)
  | reconnect {deeds : List Deed} {y : Except Stop Unit} :
    ReconnectCourse s deeds y → OperationCourse retries s .reconnect deeds (y.map fun _ => .done)
  | transfer {path : Bytes} {deeds : List Deed} {y : Except Stop Delivery} :
    TransferCourse retries s path deeds y →
      OperationCourse retries s (.transfer path) deeds (y.map .delivery)
  | uploadOnce {file : Name} {content : Bytes} {deeds : List Deed} {y : Except Stop Receipt} :
    TryCourse s file content deeds y →
      OperationCourse retries s (.uploadOnce file content) deeds (y.map .receipt)
  | giveUp {file : Name} {deeds : List Deed} {y : Except Stop Unit} :
    VerdictCourse s .finalInvalid file deeds y →
      OperationCourse retries s (.giveUp file) deeds (y.map fun _ => .done)

theorem perform_follows (s : Session) (op : Operation) :
    Follows env (perform env op) s (OperationCourse env.maxRetries s op) := by
  cases op with
  | restore => exact (restore_follows s).map fun _ _ h => .restore h
  | register username => exact (register_follows s username).map fun _ _ h => .register h
  | exchangeKeys => exact (exchangeKeys_follows s).map fun _ _ h => .exchangeKeys h
  | reconnect => exact (reconnect_follows s).map fun _ _ h => .reconnect h
  | transfer path => exact (transfer_follows s path).map fun _ _ h => .transfer h
  | uploadOnce file content =>
    exact (uploadOnce_follows s file content).map fun _ _ h => .uploadOnce h
  | giveUp file => exact (sendVerdict_follows (by nofun) s file).map fun _ _ h => .giveUp h

end Courier.Client
