import Courier.Proofs.Client.Answering
import Courier.Proofs.Client.Trips
import Courier.Proofs.Counters
import Courier.Proofs.Transport.Metering
import Courier.Proofs.Wire.RequestRoundTrip

namespace Courier

namespace Connection

variable {k left : Connection} {a : Bytes} {stop : StreamEnd}

theorem send_uncounted_of_error {message : Bytes} {e : TransferError}
    (h : (send message).Returns k (.error e) left) : left.metrics = k.metrics := by
  unfold send at h
  split at h
  · cases (Action.returns_pure.mp h).1
  rw [Action.returns_get_bind] at h
  rcases Action.returns_bind.mp h with ⟨_, m, hfeed, h⟩ | ⟨e, -, hfeed⟩
  · have hm : m.metrics = k.metrics := (feeds_quietlyWritten _ _ k _ m hfeed).2
    rcases Action.returns_bind.mp h with ⟨_, n, hflush, h⟩ | ⟨e, -, hflush⟩
    · cases (Action.returns_modify.mp h).1
    · exact ((flush_quietlyWritten _ m _ left hflush).2).trans hm
  · exact (feeds_quietlyWritten _ _ k _ left hfeed).2

theorem receiveAnnounced_uncounted_of_error {head : Nat}
    {announced : Bytes → List Event × Except TransferError Nat} {e : TransferError}
    (h : (receiveAnnounced head announced).Returns k (.error e) left) :
    left.metrics = k.metrics := by
  unfold receiveAnnounced at h
  rw [Action.returns_get_bind] at h
  rcases Action.returns_bind.mp h with ⟨⟨data, frames⟩, m, hcollect, h⟩ | ⟨e, -, hcollect⟩
  · have hm : m.metrics = k.metrics := collect_uncounted _ _ _ _ _ k _ m hcollect
    rw [Action.returns_bind_of_ok (Action.returns_modify.mpr ⟨rfl, rfl⟩)] at h
    rcases Action.returns_bind.mp h with ⟨total, n, htotal, h⟩ | ⟨e, -, htotal⟩
    · obtain ⟨-, rfl⟩ := Action.returns_ofExcept.mp htotal
      rcases Action.returns_bind.mp h with ⟨collected, u, hcollect', h⟩ | ⟨e, -, hcollect'⟩
      · rw [Action.returns_bind_of_ok (Action.returns_modify.mpr ⟨rfl, rfl⟩)] at h
        cases (Action.returns_pure.mp h).1
      · exact (collect_uncounted _ _ _ _ _ _ _ left hcollect').trans hm
    · obtain ⟨-, rfl⟩ := Action.returns_ofExcept.mp htotal
      exact hm
  · exact collect_uncounted _ _ _ _ _ k _ left hcollect

/-- A message that is received is what was announced of the bytes that come, and it is counted with
the frames that its length needs. -/
theorem receiveAnnounced_counted {head : Nat}
    {announced : Bytes → List Event × Except TransferError Nat}
    (hy : k.Yields (k.clock + k.timeouts.receive) a stop)
    (hhead : ∀ data total, (announced data).2 = .ok total → head ≤ total) {message : Bytes}
    (h : (receiveAnnounced head announced).Returns k (.ok message) left) :
    ∃ total, head ≤ a.length ∧ (announced (a.take head)).2 = .ok total ∧ total ≤ a.length ∧
      message = a.take total ∧
      left.metrics = k.metrics.map (·.messageReceived (Frame.count total) total) := by
  by_cases hl : a.length < head
  · obtain ⟨m, hm, -⟩ := receiveAnnounced_of_short announced hy hl
    cases (Action.returns_unique h hm).1
  have hle : head ≤ a.length := Nat.le_of_not_lt hl
  cases ht : (announced (a.take head)).2 with
  | error e =>
    obtain ⟨m, hm, -⟩ := receiveAnnounced_of_refused announced hy hle ht
    cases (Action.returns_unique h hm).1
  | ok total =>
    by_cases hc : a.length < total
    · obtain ⟨m, hm, -⟩ := receiveAnnounced_of_cut announced hy hle ht hc
      cases (Action.returns_unique h hm).1
    · have hc' : total ≤ a.length := Nat.le_of_not_lt hc
      obtain ⟨m, hm, -, hread⟩ :=
        receiveAnnounced_of_whole announced hy ht (hhead _ _ ht) hc'
      obtain ⟨hmessage, rfl⟩ := Action.returns_unique h hm
      exact ⟨total, hle, rfl, hc', Except.ok.inj hmessage, hread.metrics_eq⟩

/-- The connection after a request, if all of it goes out. -/
def sent? (k : Connection) (request : Request) : Option Connection :=
  match request.encode with
  | .error _ => none
  | .ok message =>
    match send message k with
    | .ok _ sent => some sent
    | .error _ _ => none

/-- The header of a response, if it is accepted and all of the response comes in. -/
def accepted? (k : Connection) (expected : ResponseCode) : Option ResponseHeader :=
  match receiveAnnounced ResponseHeader.size (ResponseHeader.announced expected) k with
  | .ok message _ => (ResponseHeader.decode message).toOption
  | .error _ _ => none

end Connection

namespace Metrics

/-- What is counted of a request. -/
def ofSent (request : Request) : Metrics :=
  (0 : Metrics).messageSent (Frame.count (23 + request.payloadSize)) (23 + request.payloadSize)

/-- What is counted of a response with a given header. -/
def ofAccepted (h : ResponseHeader) : Metrics :=
  (0 : Metrics).messageReceived (Frame.count (7 + h.payloadSize.toNat)) (7 + h.payloadSize.toNat)

end Metrics

theorem Request.length_of_encode {request : Request} {message : Bytes}
    (h : request.encode = .ok message) : message.length = 23 + request.payloadSize := by
  obtain ⟨-, rfl⟩ := Request.encode_eq_ok_iff.mp h
  exact request.length_written

theorem ResponseHeader.size_le_announced {expected : ResponseCode} {data : Bytes} {total : Nat}
    (h : (announced expected data).2 = .ok total) : size ≤ total := by
  unfold announced at h
  split at h
  · cases h
  · obtain ⟨-, rfl⟩ := judge_eq_ok h
    exact Nat.le_add_right _ _

namespace Connection

variable {α : Type} {k left : Connection} {a : Bytes} {stop : StreamEnd} {request : Request}
  {expected : ResponseCode}

/-- Until the whole request is out nothing is counted, and then just the request is. -/
theorem send_metered {talk : Action Connection α} {r : Except TransferError α}
    (h : (Action.ofExcept request.encode >>= fun message => send message >>= fun _ => talk).Returns
      k r left) :
    (k.sent? request = none ∧ left.metrics = k.metrics) ∨
      ∃ sent, k.sent? request = some sent ∧ OnlyWritten k sent ∧
        sent.metrics = k.metrics.map (· + .ofSent request) ∧ talk.Returns sent r left := by
  unfold sent?
  rcases Action.returns_bind.mp h with ⟨message, _, hm, hafter⟩ | ⟨e, rfl, hm⟩
  · obtain ⟨hencode, rfl⟩ := Action.returns_ofExcept.mp hm
    rw [← hencode]
    rcases Action.returns_bind.mp hafter with ⟨_, sent, hs, htalk⟩ | ⟨e, rfl, hs⟩
    · refine .inr ⟨sent, ?_, send_onlyWritten message _ _ sent hs, ?_, htalk⟩
      · simp only [Action.returns_ok.mp hs]
      · rw [send_counted hs, Request.length_of_encode hencode.symm]
        exact congrArg (Option.map · _) (funext fun m => m.messageSent_eq _ _)
    · refine .inl ⟨?_, send_uncounted_of_error hs⟩
      simp only [Action.returns_error.mp hs]
  · obtain ⟨hencode, rfl⟩ := Action.returns_ofExcept.mp hm
    rw [← hencode]
    exact .inl ⟨rfl, rfl⟩

/-- A response comes in full just if its header is accepted and the peer delivers all that the header
declares. -/
theorem accepted?_eq_some (hk : k.Yields (k.clock + k.timeouts.receive) a stop)
    {h : ResponseHeader} :
    k.accepted? expected = some h ↔ ResponseHeader.decode a = .ok h ∧
      h.judge expected = .ok (7 + h.payloadSize.toNat) ∧ 7 + h.payloadSize.toNat ≤ a.length := by
  unfold accepted?
  constructor
  · intro hh
    split at hh
    · rename_i message left hr
      obtain ⟨total, hsize, ht, hl, rfl, -⟩ := receiveAnnounced_counted hk
        (fun _ _ => ResponseHeader.size_le_announced) (Action.returns_ok.mpr hr)
      obtain ⟨hd, hdec⟩ := ResponseHeader.decode_of_le hsize
      rw [announced_take hdec] at ht
      obtain ⟨-, rfl⟩ := ResponseHeader.judge_eq_ok ht
      rw [ResponseHeader.decode_take (Nat.le_add_right _ _), hdec] at hh
      cases hh
      exact ⟨hdec, ht, hl⟩
    · cases hh
  · rintro ⟨hdec, hj, hl⟩
    have ht : (ResponseHeader.announced expected (a.take ResponseHeader.size)).2 =
        .ok (7 + h.payloadSize.toNat) := by
      rw [announced_take hdec, hj]
    obtain ⟨m, hm, -⟩ := receiveAnnounced_of_whole _ hk ht (Nat.le_add_right _ _) hl
    have hdec' : ResponseHeader.decode (a.take (7 + h.payloadSize.toNat)) = .ok h := by
      rw [ResponseHeader.decode_take (Nat.le_add_right 7 _), hdec]
    simp only [Action.returns_ok.mp hm, hdec']
    rfl

/-- Awaiting an answer counts it if it comes in full, and nothing otherwise. -/
theorem awaitAnswer_metered (hk : k.interrupted = false) {r : Except TransferError ResponsePayload}
    (h : (awaitAnswer expected).Returns k r left) :
    left.metrics = k.metrics.map (· + (k.accepted? expected).elim 0 .ofAccepted) := by
  obtain ⟨s, stop, hbrings⟩ := Stream.exists_brings
    (Nat.le_add_right k.clock k.timeouts.receive) k.stream.reads
  have hy : k.Yields (k.clock + k.timeouts.receive) _ stop := .live hk hbrings
  rcases Action.returns_bind.mp h with ⟨message, m, hreceive, hrest⟩ | ⟨e, -, hreceive⟩
  · obtain ⟨total, hsize, ht, hl, rfl, hm⟩ := receiveAnnounced_counted hy
      (fun _ _ => ResponseHeader.size_le_announced) hreceive
    obtain ⟨hd, hdec⟩ := ResponseHeader.decode_of_le hsize
    rw [announced_take hdec] at ht
    obtain ⟨-, rfl⟩ := ResponseHeader.judge_eq_ok ht
    have haccepted : k.accepted? expected = some hd := (accepted?_eq_some hy).mpr ⟨hdec, ht, hl⟩
    have hleft : left.metrics = m.metrics := by
      refine uncounted_bind (Action.moves_ofExcept Uncounted.refl _) (fun response => ?_) _ _ _ hrest
      refine uncounted_bind (Action.moves_attempt close_uncounted) fun _ => ?_
      exact Action.moves_pure Uncounted.refl _
    rw [hleft, hm, haccepted]
    exact congrArg (Option.map · _) (funext fun m => m.messageReceived_eq _ _)
  · have haccepted : k.accepted? expected = none := by
      unfold accepted?
      rw [Action.returns_error.mp hreceive]
    rw [receiveAnnounced_uncounted_of_error hreceive, haccepted]
    simp

end Connection

namespace RoundTrip

/-- The connection after the request, if all of it went out. -/
def sent? (trip : RoundTrip) : Option Connection :=
  match trip.opened with
  | .ok k => k.sent? trip.request
  | .error _ => none

/-- The header of the response, if one is expected, its header is accepted, and all of it came in. -/
def accepted? (trip : RoundTrip) : Option ResponseHeader :=
  match trip.sent?, trip.request.expects with
  | some sent, some expected => sent.accepted? expected
  | _, _ => none

/-- What is counted of the request and of the response. -/
def traffic (trip : RoundTrip) : Metrics :=
  (trip.sent?.elim 0 fun _ => .ofSent trip.request) + trip.accepted?.elim 0 .ofAccepted

/-- A conversation counts its traffic and nothing else. -/
theorem talk_metered {k left : Connection} (hk : k.interrupted = false) {request : Request}
    {y : Except TransferError (Option ResponsePayload)} (h : request.talk.Returns k y left)
    (outcome : Except Stop (Option ResponsePayload)) :
    left.metrics = k.metrics.map (· + traffic ⟨request, .ok k, some left, outcome⟩) := by
  unfold Request.talk at h
  unfold traffic accepted? sent?
  simp only
  cases he : request.expects with
  | some expected =>
    simp only [he] at h
    obtain ⟨r, -, hask⟩ := Action.returns_map.mp h
    rcases Connection.send_metered hask with ⟨hsent, hm⟩ | ⟨sent, hsent, hw, hm, hawait⟩
    · simp [hsent, hm]
    · have hfresh : sent.interrupted = false := (congrArg (·.interrupted) hw).trans hk
      rw [Connection.awaitAnswer_metered hfresh hawait, hm, hsent]
      simp [Function.comp_def, Metrics.add_assoc]
  | none =>
    simp only [he] at h
    obtain ⟨r, -, htell⟩ := Action.returns_map.mp h
    rcases Connection.send_metered htell with ⟨hsent, hm⟩ | ⟨sent, hsent, -, hm, hclose⟩
    · simp [hsent, hm]
    · have hleft : left.metrics = sent.metrics := Connection.close_uncounted _ _ _ hclose
      rw [hleft, hm, hsent]
      simp

end RoundTrip

end Courier
