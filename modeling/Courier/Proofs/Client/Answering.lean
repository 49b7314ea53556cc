import Courier.Proofs.Client.Conversation
import Courier.Proofs.Transport.Passing
import Courier.Proofs.Transport.Receiving
import Courier.Proofs.Wire.Answer

namespace Courier

theorem Request.ne_nil_of_encode {r : Request} {message : Bytes} (h : r.encode = .ok message) :
    message ≠ [] := by
  unfold encode at h
  cases hh : r.header with
  | error e =>
    rw [hh] at h
    cases h
  | ok hd =>
    rw [hh] at h
    cases h
    simp [RequestHeader.encode]

namespace Connection

variable {k left : Connection} {a : Bytes} {stop : StreamEnd} {expected : ResponseCode}

theorem ReadyToClose.of_onlyRead {log : List Event} {metrics : Option Metrics}
    (h : k.ReadyToClose) (hr : OnlyRead { k with log, metrics } left) : left.ReadyToClose := by
  unfold OnlyRead at hr
  rw [hr]
  exact h

/-- What is left of the bytes `a` when an answer was wanted from them: a refused header has taken
one frame, and an accepted message as many as its length needs, which are also counted. -/
def TakesFrames (limit : Nat) (expected : ResponseCode) (a : Bytes) (stop : StreamEnd)
    (k left : Connection) : Prop :=
  ∀ h, ResponseHeader.decode a = .ok h →
    (∀ e, h.judge expected = .error e → left.Yields limit (a.drop Frame.size) stop) ∧
    ∀ total, h.judge expected = .ok total → total ≤ a.length →
      left.Yields limit (a.drop (Frame.count total * Frame.size)) stop ∧
      left.metrics = k.metrics.map (·.messageReceived (Frame.count total) total)

theorem TakesFrames.shutdown {limit : Nat} (h : k.TakesFrames limit expected a stop left) :
    k.TakesFrames limit expected a stop
      { left with stream := { left.stream with shutdown := true } } := by
  intro hd hdec
  obtain ⟨hrefused, haccepted⟩ := h hd hdec
  refine ⟨fun e he => (hrefused e he).congr rfl rfl rfl rfl, fun total ht hl => ?_⟩
  obtain ⟨hy, hm⟩ := haccepted total ht hl
  exact ⟨hy.congr rfl rfl rfl rfl, hm⟩

/-- The payload of a received message. -/
def payload (y : Except TransferError Bytes) : Except TransferError ResponsePayload := do
  let message ← y
  (Response.decode message).map (·.payload)

/-- Receiving comes to `y`, which has the answer in the bytes `a` that can be read. -/
structure Receives (k : Connection) (expected : ResponseCode) (a : Bytes) (stop : StreamEnd)
    (y : Except TransferError Bytes) (left : Connection) : Prop where
  returns : (receiveAnnounced ResponseHeader.size (ResponseHeader.announced expected)).Returns
    k y left
  payload_eq : payload y = Response.answer stop.error expected a
  takesFrames : k.TakesFrames (k.clock + k.timeouts.receive) expected a stop left
  ready : ∀ message, y = .ok message → k.ReadyToClose → left.ReadyToClose

section Receives

variable {hd : ResponseHeader}

theorem takesFrames_of_decode {limit : Nat} (hdec : ResponseHeader.decode a = .ok hd)
    (hrefused : ∀ e, hd.judge expected = .error e → left.Yields limit (a.drop Frame.size) stop)
    (haccepted : ∀ total, hd.judge expected = .ok total → total ≤ a.length →
      left.Yields limit (a.drop (Frame.count total * Frame.size)) stop ∧
      left.metrics = k.metrics.map (·.messageReceived (Frame.count total) total)) :
    k.TakesFrames limit expected a stop left := by
  intro hd' hdec'
  cases hdec.symm.trans hdec'
  exact ⟨hrefused, haccepted⟩

theorem announced_take (hdec : ResponseHeader.decode a = .ok hd) :
    ResponseHeader.announced expected (a.take ResponseHeader.size) =
      (hd.warnings expected, hd.judge expected) := by
  apply ResponseHeader.announced_of_decode
  rw [ResponseHeader.decode_take (Nat.le_refl _), hdec]

variable (h : k.Yields (k.clock + k.timeouts.receive) a stop)

include h

theorem receives_of_short (hs : a.length < ResponseHeader.size) :
    ∃ y left, k.Receives expected a stop y left := by
  obtain ⟨left, hleft, -⟩ := receiveAnnounced_of_short (ResponseHeader.announced expected) h hs
  refine ⟨_, left, hleft, ?_, ?_, by simp⟩
  · rw [Response.answer_of_short hs]
    rfl
  · intro hd hdec
    have hle := ResponseHeader.le_of_decode hdec
    omega

theorem receives_of_refused (hdec : ResponseHeader.decode a = .ok hd) {e : TransferError}
    (hj : hd.judge expected = .error e) : ∃ y left, k.Receives expected a stop y left := by
  have he : (ResponseHeader.announced expected (a.take ResponseHeader.size)).2 = .error e := by
    rw [announced_take hdec, hj]
  obtain ⟨left, hleft, hy, -⟩ :=
    receiveAnnounced_of_refused _ h (ResponseHeader.le_of_decode hdec) he
  refine ⟨_, left, hleft, ?_, ?_, by simp⟩
  · rw [Response.answer_of_header hdec, hj]
    rfl
  · refine takesFrames_of_decode hdec (fun _ _ => hy) fun total ht => ?_
    cases hj.symm.trans ht

theorem receives_of_cut (hdec : ResponseHeader.decode a = .ok hd) {total : Nat}
    (hj : hd.judge expected = .ok total) (hc : a.length < total) :
    ∃ y left, k.Receives expected a stop y left := by
  have ht : (ResponseHeader.announced expected (a.take ResponseHeader.size)).2 = .ok total := by
    rw [announced_take hdec, hj]
  obtain ⟨left, hleft, -⟩ := receiveAnnounced_of_cut _ h (ResponseHeader.le_of_decode hdec) ht hc
  refine ⟨_, left, hleft, ?_, ?_, by simp⟩
  · rw [Response.answer_of_header hdec, hj, ok_bind, if_pos hc]
    rfl
  · refine takesFrames_of_decode hdec (fun e he => ?_) fun total' ht' hl => ?_
    · cases hj.symm.trans he
    · cases hj.symm.trans ht'
      omega

theorem receives_of_whole (hdec : ResponseHeader.decode a = .ok hd) {total : Nat}
    (hj : hd.judge expected = .ok total) (hc : total ≤ a.length) :
    ∃ y left, k.Receives expected a stop y left := by
  have ht : (ResponseHeader.announced expected (a.take ResponseHeader.size)).2 = .ok total := by
    rw [announced_take hdec, hj]
  obtain ⟨-, rfl⟩ := ResponseHeader.judge_eq_ok hj
  obtain ⟨left, hleft, hy, hread⟩ := receiveAnnounced_of_whole _ h ht (Nat.le_add_right _ _) hc
  refine ⟨_, left, hleft, ?_, ?_, fun _ _ hk => hk.of_onlyRead hread⟩
  · rw [Response.answer_of_header hdec, hj, ok_bind, if_neg (by omega),
      ← Response.decode_take hdec hc]
    rfl
  · refine takesFrames_of_decode hdec (fun e he => ?_) fun total ht' hl => ?_
    · cases hj.symm.trans he
    · cases hj.symm.trans ht'
      exact ⟨hy, hread.metrics_eq⟩

/-- Receiving comes to the answer in the bytes that can be read. -/
theorem exists_receives (expected : ResponseCode) :
    ∃ y left, k.Receives expected a stop y left := by
  by_cases hs : a.length < ResponseHeader.size
  · exact receives_of_short h hs
  obtain ⟨hd, hdec⟩ := ResponseHeader.decode_of_le (Nat.le_of_not_lt hs)
  cases hj : hd.judge expected with
  | error e => exact receives_of_refused h hdec hj
  | ok total =>
    by_cases hc : a.length < total
    · exact receives_of_cut h hdec hj hc
    · exact receives_of_whole h hdec hj (Nat.le_of_not_lt hc)

end Receives

/-- What `ask` does once its request is sent. -/
def awaitAnswer (expected : ResponseCode) : Action Connection ResponsePayload := do
  let message ← receiveAnnounced ResponseHeader.size (ResponseHeader.announced expected)
  let response ← Action.ofExcept (Response.decode message)
  let _ ← Action.attempt close
  return response.payload

theorem returns_ask {request : Request} {message : Bytes} {sent : Connection}
    (hm : request.encode = .ok message) (hs : (send message).Returns k (.ok ()) sent)
    {r : Except TransferError ResponsePayload} :
    (ask request expected).Returns k r left ↔ (awaitAnswer expected).Returns sent r left := by
  have he : (Action.ofExcept request.encode).Returns k (.ok message) k :=
    Action.returns_ofExcept.mpr ⟨hm.symm, rfl⟩
  exact (Action.returns_bind_of_ok he).trans (Action.returns_bind_of_ok hs)

theorem awaitAnswer_of_error {y : Except TransferError Bytes} {e : TransferError}
    (h : (receiveAnnounced ResponseHeader.size (ResponseHeader.announced expected)).Returns
      k y left)
    (hp : payload y = .error e) : (awaitAnswer expected).Returns k (.error e) left := by
  cases y with
  | error e' =>
    cases hp
    exact Action.returns_bind_of_error h
  | ok message =>
    refine (Action.returns_bind_of_ok h).mpr ?_
    change (Response.decode message).map (·.payload) = .error e at hp
    cases hd : Response.decode message with
    | error e' =>
      rw [hd] at hp
      cases hp
      exact Action.returns_bind_of_error (Action.returns_ofExcept.mpr ⟨rfl, rfl⟩)
    | ok response =>
      rw [hd] at hp
      cases hp

theorem awaitAnswer_of_ok {message : Bytes} {p : ResponsePayload}
    (h : (receiveAnnounced ResponseHeader.size (ResponseHeader.announced expected)).Returns
      k (.ok message) left)
    (hp : payload (.ok message) = .ok p) (hready : left.ReadyToClose) :
    (awaitAnswer expected).Returns k (.ok p)
      { left with stream := { left.stream with shutdown := true } } := by
  refine (Action.returns_bind_of_ok h).mpr ?_
  change (Response.decode message).map (·.payload) = .ok p at hp
  cases hd : Response.decode message with
  | error e =>
    rw [hd] at hp
    cases hp
  | ok response =>
    rw [hd] at hp
    cases hp
    obtain ⟨closed, hclose⟩ := close_of_readyToClose hready
    have hattempt := Action.returns_attempt.mpr ⟨closed, rfl, hclose⟩
    refine (Action.returns_bind_of_ok (Action.returns_ofExcept.mpr ⟨rfl, rfl⟩)).mpr ?_
    refine (Action.returns_bind_of_ok hattempt).mpr ?_
    exact Action.returns_pure.mpr ⟨rfl, rfl⟩

/-- The answer is awaited until the deadline and no longer, and closing does not change it. -/
theorem awaitAnswer_answer (h : k.Yields (k.clock + k.timeouts.receive) a stop)
    (hready : k.ReadyToClose) (expected : ResponseCode) :
    ∃ left, (awaitAnswer expected).Returns k (Response.answer stop.error expected a) left ∧
      k.TakesFrames (k.clock + k.timeouts.receive) expected a stop left := by
  obtain ⟨y, m, hreceive, hanswer, htakes, hclose⟩ := exists_receives h expected
  cases hr : Response.answer stop.error expected a with
  | error e => exact ⟨m, awaitAnswer_of_error hreceive (hanswer.trans hr), htakes⟩
  | ok p =>
    rw [hr] at hanswer
    cases y with
    | error e => cases hanswer
    | ok message =>
      exact ⟨_, awaitAnswer_of_ok hreceive hanswer (hclose message rfl hready), htakes.shutdown⟩

/-- Whatever the peer does, a payload that is handed on has an expected code. -/
theorem answers_of_ask {request : Request} {p : ResponsePayload} (hk : k.interrupted = false)
    (h : (ask request expected).Returns k (.ok p) left) :
    ResponseHeader.answers expected p.code.value := by
  obtain ⟨message, _, hm, hafter⟩ := Action.returns_bind_ok.mp h
  obtain ⟨-, rfl⟩ := Action.returns_ofExcept.mp hm
  obtain ⟨_, sent, hs, hawait⟩ := Action.returns_bind_ok.mp hafter
  obtain ⟨received, m, hreceive, hrest⟩ := Action.returns_bind_ok.mp hawait
  obtain ⟨response, u, hresponse, hclose⟩ := Action.returns_bind_ok.mp hrest
  obtain ⟨_, v, -, hpure⟩ := Action.returns_bind_ok.mp hclose
  obtain ⟨hp, -⟩ := Action.returns_pure.mp hpure
  obtain ⟨hdecode, -⟩ := Action.returns_ofExcept.mp hresponse
  have hw := send_onlyWritten message _ _ sent hs
  have hsent : sent.interrupted = false := (congrArg (·.interrupted) hw).trans hk
  obtain ⟨s, stop, hbrings⟩ := Stream.exists_brings
    (Nat.le_add_right sent.clock sent.timeouts.receive) sent.stream.reads
  obtain ⟨y, m', hreceive', hanswer, -, -⟩ := exists_receives (.live hsent hbrings) expected
  obtain ⟨rfl, -⟩ := Action.returns_unique hreceive hreceive'
  have hpayload : payload (.ok received) = .ok p := by
    change (Response.decode received).map (·.payload) = .ok p
    rw [← hdecode, hp]
    rfl
  exact Response.answers_of_answer (hanswer.symm.trans hpayload)

/-- Just `n` frames have been taken of the bytes `s`, after which the peer ends the stream. -/
def HasTaken (k : Connection) (limit : Nat) (s : Bytes) (n : Nat) : Prop :=
  n ≤ Frame.count s.length ∧ k.Yields limit (s.drop (n * Frame.size)) .closed

end Connection

namespace Client

variable {ω : Type} {env : Environment ω} {c : Client ω}

/-- Once a request is sent, asking gives the answer in the bytes that the peer delivers before it
ends the stream, in whatever pieces they come. What follows the declared payload plays no part. A
refused header costs one frame, and an accepted response as many as it fills. -/
theorem ask_delivered {request : Request} {message s : Bytes} {stream : Stream} {world : ω}
    {sent : Connection} (expected : ResponseCode)
    (hconnect : env.connect c.world = (.ok stream, world))
    (hencode : request.encode = .ok message)
    (hsend : (Connection.send message).Returns (opening env c stream) (.ok ()) sent)
    (hbrings : Stream.Brings (sent.clock + env.timeouts.receive) sent.clock stream.reads s .closed)
    (hclose : stream.onShutdown ≠ .hang) :
    ∃ left d, (ask env request expected).Returns c
        (Response.answer .connectionClosed expected s) d ∧
      d.journal = c.journal ++ [.roundTrip ⟨request, .ok (opening env c stream), some left,
        outcome some (Response.answer .connectionClosed expected s)⟩] ∧
      ∀ h, ResponseHeader.decode s = .ok h →
        (∀ t, t.take (7 + h.payloadSize.toNat) = s.take (7 + h.payloadSize.toNat) →
          Response.answer .connectionClosed expected t =
            Response.answer .connectionClosed expected s) ∧
        (∀ e, h.judge expected = .error e →
          left.HasTaken (sent.clock + env.timeouts.receive) s 1) ∧
        ∀ total, h.judge expected = .ok total → total ≤ s.length →
          total = 7 + h.payloadSize.toNat ∧ Frame.count total ≤ 65 ∧
          left.HasTaken (sent.clock + env.timeouts.receive) s (Frame.count total) ∧
          left.metrics = sent.metrics.map (·.messageReceived (Frame.count total) total) := by
  have hw := Connection.send_onlyWritten message _ _ sent hsend
  have htimeouts : sent.timeouts = env.timeouts := congrArg (·.timeouts) hw
  have hyields : sent.Yields (sent.clock + sent.timeouts.receive) s .closed := by
    have hreads : sent.stream.reads = stream.reads := congrArg (·.stream.reads) hw
    have hinbound : sent.inbound = [] := congrArg (·.inbound) hw
    have hinterrupted : sent.interrupted = false := congrArg (·.interrupted) hw
    rw [htimeouts, ← List.nil_append s, ← hinbound]
    rw [← hreads] at hbrings
    exact .live hinterrupted hbrings
  -- Closing flushes once more, but no flush can wait for ever after the one that sending ended with.
  have hready := Connection.send_readyToClose (Request.ne_nil_of_encode hencode) hsend hclose
  obtain ⟨left, hask, htakes⟩ := Connection.awaitAnswer_answer hyields hready expected
  rw [← Connection.returns_ask hencode hsend] at hask
  have hconverse : (ask env request expected).Leads c _ _ :=
    converse_of_connected hconnect (Action.leads_of_returns hask)
  rw [outcome_eq] at hconverse
  refine ⟨left, _, Action.returns_of_leads_mapError hconverse, rfl, ?_⟩
  rw [htimeouts] at htakes
  intro h hd
  obtain ⟨hrefused, haccepted⟩ := htakes h hd
  have hsize := ResponseHeader.le_of_decode hd
  refine ⟨fun t ht => Response.answer_congr hd ht, ?_, ?_⟩
  · intro e he
    refine ⟨?_, ?_⟩
    · simp only [Frame.count, Frame.size, ResponseHeader.size] at hsize ⊢
      omega
    · rw [Nat.one_mul]
      exact hrefused e he
  · intro total ht hl
    obtain ⟨hmax, htotal⟩ := ResponseHeader.judge_eq_ok ht
    obtain ⟨hy, hm⟩ := haccepted total ht hl
    refine ⟨htotal, ?_, ⟨?_, hy⟩, hm⟩
    · simp only [ResponseHeader.maxPayload, ResponseHeader.size] at hmax htotal
      simp only [Frame.count, Frame.size]
      omega
    · simp only [Frame.count, Frame.size]
      omega

/-- A registration is answered in four pieces, with pauses, and more follows the answer. -/
theorem ask_delivered_in_pieces :
    ∃ (c d : Client (List Stream)) (left : Connection) (id : ClientId),
      c.world = [heedful [.data [3, 52, 8], .pause 5 none, .data [16, 0, 0, 0, 7],
        .data (List.replicate 15 9), .pause 20 none, .data [1, 2], .ended]] ∧
      (ask inTurn (.registration .empty) .registrationSuccess).Returns c
        (.ok (.registrationSuccess id)) d ∧
      id.bytes = 7 :: List.replicate 15 9 ∧
      left.HasTaken 50 ([3, 52, 8, 16, 0, 0, 0, 7] ++ List.replicate 15 9 ++ [1, 2]) 1 ∧
      (∀ t, t.take 23 = [3, 52, 8, 16, 0, 0, 0, 7] ++ List.replicate 15 9 →
        Response.answer .connectionClosed .registrationSuccess t =
          .ok (.registrationSuccess id)) := by
  let stream : Stream := heedful [.data [3, 52, 8], .pause 5 none, .data [16, 0, 0, 0, 7],
    .data (List.replicate 15 9), .pause 20 none, .data [1, 2], .ended]
  let c : Client (List Stream) := .new [stream]
  let s : Bytes := [3, 52, 8, 16, 0, 0, 0, 7] ++ List.replicate 15 9 ++ [1, 2]
  let id : ClientId := ⟨7 :: List.replicate 15 9, rfl⟩
  let header : ResponseHeader := ⟨3, 2100, 16⟩
  obtain ⟨message, hencode⟩ : ∃ message, (Request.registration .empty).encode = .ok message :=
    ⟨_, rfl⟩
  obtain ⟨sent, hsend, hclock⟩ :=
    Connection.send_of_willing (k := opening inTurn c stream) ⟨rfl, rfl⟩ message
  have hnow : sent.clock = 0 := hclock
  have hbrings : Stream.Brings (sent.clock + inTurn.timeouts.receive) sent.clock stream.reads s
      .closed := by
    rw [hnow]
    change Stream.Brings 50 0 stream.reads
      ([3, 52, 8] ++ ([16, 0, 0, 0, 7] ++ (List.replicate 15 9 ++ ([1, 2] ++ [])))) .closed
    exact .data (.pause (by decide) (.data (.data (.pause (by decide) (.data .ended)))))
  have hanswer : Response.answer .connectionClosed .registrationSuccess s =
      .ok (.registrationSuccess id) := rfl
  have hconnect : inTurn.connect c.world = (.ok stream, []) := rfl
  obtain ⟨left, d, hask, -, hall⟩ :=
    ask_delivered .registrationSuccess hconnect hencode hsend hbrings (by decide)
  obtain ⟨hcongr, -, hframes⟩ := hall header rfl
  obtain ⟨-, -, htaken, -⟩ := hframes 23 rfl (by decide)
  rw [hnow] at htaken
  rw [hanswer] at hask hcongr
  exact ⟨c, d, left, id, rfl, hask, rfl, htaken, hcongr⟩

end Client

end Courier
