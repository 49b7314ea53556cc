import Courier.Client.RoundTrip
import Courier.Path
import Courier.Proofs.Action
import Courier.Proofs.Wire.Answer

namespace Courier

namespace TransferError

/-- A cause that is no judgement on an upload. -/
def IsPlain : TransferError → Prop
  | .integrityMismatch _ _ | .transferAbandoned _ => False
  | _ => True

theorem IsPlain.not_isRetryable {e : TransferError} (h : e.IsPlain) : e.isRetryable = false := by
  cases e with
  | integrityMismatch l s => exact h.elim
  | _ => rfl

end TransferError

open TransferError (IsPlain)

/-- A reader that fails with plain causes only. -/
def FailsPlainly {α : Type} (x : Except TransferError α) : Prop :=
  ∀ e, x = .error e → e.IsPlain

section Readers

variable {α β : Type}

theorem failsPlainly_ok (a : α) : FailsPlainly (.ok a) := by
  intro e h
  cases h

theorem failsPlainly_error {e : TransferError} (h : e.IsPlain) :
    FailsPlainly (.error e : Except TransferError α) := by
  intro e' he
  cases he
  exact h

theorem FailsPlainly.bind {x : Except TransferError α} {f : α → Except TransferError β}
    (hx : FailsPlainly x) (hf : ∀ a, FailsPlainly (f a)) : FailsPlainly (x >>= f) := by
  intro e h
  rcases bind_eq_error.mp h with h | ⟨a, _, h⟩
  · exact hx e h
  · exact hf a e h

theorem FailsPlainly.map {x : Except TransferError α} (hx : FailsPlainly x) (f : α → β) :
    FailsPlainly (x.map f) := by
  intro e h
  cases x with
  | error e' =>
    cases h
    exact hx e rfl
  | ok a => cases h

theorem Wire.ensure_failsPlainly (need : Nat) (data : Bytes) :
    FailsPlainly (ensure need data) := by
  unfold ensure
  split
  · exact failsPlainly_error trivial
  · exact failsPlainly_ok _

theorem Wire.takeField_failsPlainly (width : Nat) (data : Bytes) :
    FailsPlainly (takeField width data) := by
  unfold takeField
  split
  · exact failsPlainly_error trivial
  · exact failsPlainly_ok _

theorem ResponsePayload.decodeAs_failsPlainly (code : ResponseCode) (data : Bytes) :
    FailsPlainly (decodeAs code data) := by
  have hid : FailsPlainly (ClientId.take data) := (Wire.takeField_failsPlainly 16 data).map _
  cases code with
  | registrationFailure => exact failsPlainly_ok _
  | serverError => exact failsPlainly_ok _
  | registrationSuccess | messageDelivered | reconnectionDenied | keyExchange
  | reconnectionAccepted => exact hid.bind fun _ => failsPlainly_ok _
  | fileDelivered =>
    refine (Wire.ensure_failsPlainly 279 data).bind fun _ => hid.bind fun _ => ?_
    refine (Wire.takeField_failsPlainly 4 _).bind fun _ => ?_
    refine ((Wire.takeField_failsPlainly Name.fieldSize _).map _).bind fun _ => ?_
    exact (Wire.takeField_failsPlainly 4 _).bind fun _ => failsPlainly_ok _

theorem ResponseHeader.decode_failsPlainly (data : Bytes) : FailsPlainly (decode data) := by
  unfold decode
  split
  · exact failsPlainly_ok _
  · exact failsPlainly_error trivial

theorem Response.decode_failsPlainly (data : Bytes) : FailsPlainly (decode data) := by
  refine (ResponseHeader.decode_failsPlainly data).bind fun h => ?_
  refine FailsPlainly.bind ?_ fun _ => failsPlainly_ok _
  refine (Wire.ensure_failsPlainly _ _).bind fun _ => ?_
  unfold ResponsePayload.decode
  split
  · exact failsPlainly_error trivial
  · exact ResponsePayload.decodeAs_failsPlainly _ _

theorem ResponseHeader.judge_failsPlainly (h : ResponseHeader) (expected : ResponseCode) :
    FailsPlainly (h.judge expected) := by
  refine FailsPlainly.bind ?_ fun _ => ?_
  · unfold validate checkSize
    split
    · exact failsPlainly_error trivial
    split
    · split
      · split
        · exact failsPlainly_ok _
        · exact failsPlainly_error trivial
      · exact failsPlainly_ok _
    · exact failsPlainly_error trivial
  · unfold responseLength
    split
    · exact failsPlainly_error trivial
    · exact failsPlainly_ok _

theorem ResponseHeader.announced_failsPlainly (expected : ResponseCode) (data : Bytes) :
    FailsPlainly (announced expected data).2 := by
  unfold announced
  split
  · rename_i e he
    exact failsPlainly_error (decode_failsPlainly data e he)
  · rename_i h _
    exact judge_failsPlainly h expected

theorem Request.header_failsPlainly (r : Request) : FailsPlainly r.header := by
  unfold header
  split
  · exact failsPlainly_ok _
  · exact failsPlainly_error trivial

theorem Name.ofText_failsPlainly (text : String) : FailsPlainly (ofText text) := by
  unfold ofText
  split
  · exact failsPlainly_error trivial
  split
  · exact failsPlainly_ok _
  · exact failsPlainly_error trivial

theorem Path.wireName_failsPlainly (path : Bytes) : FailsPlainly (wireName path) := by
  unfold wireName
  split
  · exact failsPlainly_error trivial
  · exact Name.ofText_failsPlainly _

theorem Session.beginTransfer_failsPlainly (s : Session) : FailsPlainly s.beginTransfer := by
  refine FailsPlainly.bind ?_ fun _ => FailsPlainly.bind ?_ fun _ => failsPlainly_ok _
  · unfold requireId
    split
    · exact failsPlainly_ok _
    · exact failsPlainly_error trivial
  · unfold requireSymmetricKey
    split
    · exact failsPlainly_ok _
    · exact failsPlainly_error trivial

end Readers

namespace Connection

open Courier.Action

theorem writeOut_raises (deadline : Option Nat) (enough : Nat) :
    (writeOut deadline enough).Raises IsPlain := by
  intro k e left h
  rw [returns_error] at h
  unfold writeOut at h
  simp only at h
  split at h
  · cases h
  · cases h
  · rename_i f _
    cases h
    unfold Fault.writeError
    split <;> exact trivial
  · cases h
    exact trivial
  · cases h

theorem settle_raises (deadline : Option Nat) (s : Settle) :
    (settle deadline s).Raises IsPlain := by
  intro k e left h
  rw [returns_error] at h
  unfold settle at h
  split at h
  · cases h
  · rename_i f
    cases h
    unfold Fault.writeError
    split <;> exact trivial
  · split at h
    · cases h
      exact trivial
    · cases h

theorem flush_raises (deadline : Option Nat) : (flush deadline).Raises IsPlain :=
  (writeOut_raises deadline 0).bind fun _ => raises_get.bind fun _ => settle_raises deadline _

theorem await_raises (deadline : Nat) : (await deadline).Raises IsPlain := by
  intro k e left h
  rw [returns_error] at h
  unfold await at h
  split at h
  · cases h
    exact trivial
  · cases h

theorem makeRoom_raises (deadline : Nat) : (makeRoom deadline).Raises IsPlain := by
  refine raises_get.bind fun k => ?_
  split
  · refine (writeOut_raises _ _).bind fun done => ?_
    cases done with
    | false => exact await_raises deadline
    | true =>
      refine raises_get.bind fun m => ?_
      split
      · exact await_raises deadline
      · exact settle_raises _ _
  · exact raises_pure _

theorem send_raises (message : Bytes) : (send message).Raises IsPlain := by
  unfold send
  split
  · exact raises_pure _
  refine raises_get.bind fun k => ?_
  refine (raises_forM (fun chunk => ?_) _).bind fun _ => ?_
  · exact (makeRoom_raises _).bind fun _ => raises_modify _
  · exact (flush_raises _).bind fun _ => raises_modify _

theorem close_raises : close.Raises IsPlain :=
  (flush_raises none).bind fun _ => (raises_modify _).bind fun _ =>
    raises_get.bind fun _ => settle_raises none _

theorem nextFrame_raises (deadline : Option Nat) : (nextFrame deadline).Raises IsPlain := by
  intro k e left h
  rw [returns_error] at h
  unfold nextFrame at h
  split at h
  · cases h
    exact trivial
  split at h
  · cases h
  simp only at h
  split at h
  · cases h
  · split at h
    · cases h
      exact trivial
    · cases h
  · cases h
    exact trivial
  · cases h
    exact trivial
  · cases h

theorem collect_raises (deadline : Option Nat) (wanted most : Nat) (data : Bytes)
    (frames : Nat) : (collect deadline wanted most data frames).Raises IsPlain := by
  induction most generalizing data frames with
  | zero => exact raises_pure _
  | succ most ih =>
    unfold collect
    split
    · exact raises_pure _
    · exact (nextFrame_raises deadline).bind fun _ => ih _ _

theorem receiveAnnounced_raises {announced : Bytes → List Event × Except TransferError Nat}
    (ha : ∀ data, FailsPlainly (announced data).2) (head : Nat) :
    (receiveAnnounced head announced).Raises IsPlain := by
  refine raises_get.bind fun k => (collect_raises _ _ _ _ _).bind fun collected => ?_
  refine (raises_modify _).bind fun _ => (raises_ofExcept (ha _)).bind fun total => ?_
  refine (collect_raises _ _ _ _ _).bind fun collected => ?_
  exact (raises_modify _).bind fun _ => raises_pure _

theorem encode_raises (request : Request) :
    (ofExcept request.encode : Action Connection Bytes).Raises IsPlain :=
  raises_ofExcept (request.header_failsPlainly.map _)

theorem ask_raises (request : Request) (expected : ResponseCode) :
    (ask request expected).Raises IsPlain := by
  refine (encode_raises request).bind fun message => (send_raises message).bind fun _ => ?_
  refine (receiveAnnounced_raises (ResponseHeader.announced_failsPlainly expected) _).bind
    fun received => ?_
  refine (raises_ofExcept (Response.decode_failsPlainly received)).bind fun response => ?_
  exact (raises_attempt _).bind fun _ => raises_pure _

theorem tell_raises (request : Request) : (tell request).Raises IsPlain :=
  (encode_raises request).bind fun message => (send_raises message).bind fun _ => close_raises

end Connection

end Courier
