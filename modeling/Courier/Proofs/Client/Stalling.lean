import Courier.Proofs.Client.SessionInvariant
import Courier.Proofs.Transport.Stalling

namespace Courier

open Courier.Action

namespace Connection

variable {k l : Connection} {request : Request}

/-- All is said about a request: it is out, and if it has an answer, a good one has come. -/
inductive HasSaid (k : Connection) (request : Request) : Connection → Prop where
  | told {message : Bytes} {left : Connection} :
    request.expects = none → request.encode = .ok message →
      (send message).Returns k (.ok ()) left → HasSaid k request left
  | answered {expected : ResponseCode} {message received : Bytes} {p : ResponsePayload}
      {sent left : Connection} :
    request.expects = some expected → request.encode = .ok message →
      (send message).Returns k (.ok ()) sent →
        (receiveAnnounced ResponseHeader.size (ResponseHeader.announced expected)).Returns sent
          (.ok received) left →
          payload (.ok received) = .ok p → HasSaid k request left

/-- Before anything can wait for ever the request is out, and flushed. -/
theorem hangs_after_send {α : Type} {x : Action Connection α} :
    (ofExcept request.encode >>= fun message => send message >>= fun _ => x).Hangs k l ↔
      ∃ message sent, request.encode = .ok message ∧ (send message).Returns k (.ok ()) sent ∧
        sent.outbound = [] ∧ sent.stream.onFlush = .done ∧
        sent.stream.onShutdown = k.stream.onShutdown ∧ x.Hangs sent l := by
  constructor
  · intro h
    rcases hangs_bind.mp h with hm | ⟨message, _, hm, hafter⟩
    · exact absurd hm not_hangs_ofExcept
    obtain ⟨hencode, rfl⟩ := returns_ofExcept.mp hm
    rcases hangs_bind.mp hafter with hsend | ⟨_, sent, hsend, hrest⟩
    · exact absurd hsend (send_ends message _ _)
    obtain ⟨ho, hf⟩ := send_flushed (Request.ne_nil_of_encode hencode.symm) hsend
    have hshut : sent.stream.onShutdown = _ :=
      congrArg (·.stream.onShutdown) (send_onlyWritten message _ _ sent hsend)
    exact ⟨message, sent, hencode.symm, hsend, ho, hf, hshut, hrest⟩
  · rintro ⟨message, sent, hencode, hsend, -, -, -, hrest⟩
    rw [hangs_bind_of_ok (returns_ofExcept.mpr ⟨hencode.symm, rfl⟩), hangs_bind_of_ok hsend]
    exact hrest

theorem awaitAnswer_hangs_iff {expected : ResponseCode} (ho : k.outbound = [])
    (hf : k.stream.onFlush = .done) :
    (awaitAnswer expected).Hangs k l ↔ k.stream.onShutdown = .hang ∧ ∃ received p left,
      (receiveAnnounced ResponseHeader.size (ResponseHeader.announced expected)).Returns k
        (.ok received) left ∧ payload (.ok received) = .ok p ∧ l = left.shutDown := by
  have hclose {received : Bytes} {left : Connection}
      (hreceive : (receiveAnnounced ResponseHeader.size (ResponseHeader.announced expected)).Returns
        k (.ok received) left) :
      (attempt close).Hangs left l ↔ k.stream.onShutdown = .hang ∧ l = left.shutDown := by
    obtain ⟨hout, hflush, hshut⟩ := receiveAnnounced_sameOutgoing _ _ _ _ _ hreceive
    rw [hangs_attempt, close_hangs_iff (hout.trans ho) (hflush.trans hf), hshut]
  constructor
  · intro h
    rcases hangs_bind.mp h with hreceive | ⟨received, left, hreceive, hrest⟩
    · exact absurd hreceive (receiveAnnounced_ends _ _ _ _)
    rcases hangs_bind.mp hrest with hresponse | ⟨response, _, hresponse, hlast⟩
    · exact absurd hresponse not_hangs_ofExcept
    obtain ⟨hdecode, rfl⟩ := returns_ofExcept.mp hresponse
    rcases hangs_bind.mp hlast with hattempt | ⟨_, _, -, hpure⟩
    · obtain ⟨hs, hl⟩ := (hclose hreceive).mp hattempt
      refine ⟨hs, received, response.payload, _, hreceive, ?_, hl⟩
      change (Response.decode received).map (·.payload) = _
      rw [← hdecode]
      rfl
    · exact absurd hpure (ends_pure _ _ _)
  · rintro ⟨hs, received, p, left, hreceive, hp, hl⟩
    change (Response.decode received).map (·.payload) = .ok p at hp
    refine (hangs_bind_of_ok hreceive).mpr ?_
    cases hdecode : Response.decode received with
    | error e =>
      rw [hdecode] at hp
      cases hp
    | ok response =>
      refine (hangs_bind_of_ok (returns_ofExcept.mpr ⟨rfl, rfl⟩)).mpr ?_
      exact hangs_bind.mpr (.inl ((hclose hreceive).mpr ⟨hs, hl⟩))

/-- What is said about a request waits for ever just if all of it is said and the shutdown stalls. -/
theorem talk_hangs_iff :
    request.talk.Hangs k l ↔
      k.stream.onShutdown = .hang ∧ ∃ left, HasSaid k request left ∧ l = left.shutDown := by
  unfold Request.talk
  cases he : request.expects with
  | none =>
    simp only
    rw [hangs_map]
    refine hangs_after_send.trans ⟨?_, ?_⟩
    · rintro ⟨message, sent, hencode, hsend, ho, hf, hshut, hclose⟩
      obtain ⟨hs, hl⟩ := (close_hangs_iff ho hf).mp hclose
      exact ⟨hshut ▸ hs, sent, .told he hencode hsend, hl⟩
    · rintro ⟨hs, left, hsaid, hl⟩
      cases hsaid with
      | @told message _ _ hencode hsend =>
        obtain ⟨ho, hf⟩ := send_flushed (Request.ne_nil_of_encode hencode) hsend
        have hshut : left.stream.onShutdown = k.stream.onShutdown :=
          congrArg (·.stream.onShutdown) (send_onlyWritten message _ _ left hsend)
        exact ⟨message, left, hencode, hsend, ho, hf, hshut,
          (close_hangs_iff ho hf).mpr ⟨hshut.trans hs, hl⟩⟩
      | answered he' => cases he.symm.trans he'
  | some expected =>
    simp only
    rw [hangs_map]
    refine (hangs_after_send (x := awaitAnswer expected)).trans ⟨?_, ?_⟩
    · rintro ⟨message, sent, hencode, hsend, ho, hf, hshut, hawait⟩
      obtain ⟨hs, received, p, left, hreceive, hp, hl⟩ := (awaitAnswer_hangs_iff ho hf).mp hawait
      exact ⟨hshut ▸ hs, left, .answered he hencode hsend hreceive hp, hl⟩
    · rintro ⟨hs, left, hsaid, hl⟩
      cases hsaid with
      | told he' => cases he.symm.trans he'
      | @answered expected' message received p sent _ he' hencode hsend hreceive hp =>
        cases he.symm.trans he'
        obtain ⟨ho, hf⟩ := send_flushed (Request.ne_nil_of_encode hencode) hsend
        have hshut : sent.stream.onShutdown = k.stream.onShutdown :=
          congrArg (·.stream.onShutdown) (send_onlyWritten message _ _ sent hsend)
        exact ⟨message, sent, hencode, hsend, ho, hf, hshut,
          (awaitAnswer_hangs_iff ho hf).mpr ⟨hshut.trans hs, received, p, left, hreceive, hp, hl⟩⟩

end Connection

/-- All is said in the round trip, and then the shutdown of its stream stalls. -/
def RoundTrip.Stalls {ω : Type} (env : Environment ω) (trip : RoundTrip) : Prop :=
  ∃ k w w' left, trip.opened = .ok k ∧ env.connect w = (.ok k.stream, w') ∧
    k.HasSaid trip.request left ∧ k.stream.onShutdown = .hang

/-- A round trip that came back did not stall. -/
theorem RoundTrip.Held.not_stalls {ω : Type} {env : Environment ω} {trip : RoundTrip}
    (h : trip.Held env) : ¬trip.Stalls env := by
  rintro ⟨k, w, w', left, hk, -, hsaid, hs⟩
  cases h with
  | unconnected => cases hk
  | connected _ htalk =>
    cases hk
    exact not_hangs_of_returns htalk (Connection.talk_hangs_iff.mpr ⟨hs, left, hsaid, rfl⟩)

namespace Client

variable {ω α : Type} {env : Environment ω} {c d : Client ω}

/-- A round trip waits for ever only on the shutdown of its stream. -/
theorem Converses.stalls {trip : RoundTrip} (h : Converses env c trip d)
    (hhung : trip.outcome = .error .hung) : trip.Stalls env := by
  cases h with
  | unconnected => cases hhung
  | connected hconnect htalk =>
    cases hhung
    obtain ⟨hs, left, hsaid, -⟩ := Connection.talk_hangs_iff.mp (hangs_of_leads htalk)
    exact ⟨_, _, _, left, rfl, hconnect, hsaid, hs⟩

/-- What waits for ever ends in a round trip that stalls. -/
theorem Comes.stalls {deeds : List Deed} (h : Comes env c deeds (.error .hung : Except Stop α) d) :
    ∃ ts trip, trips d.journal = trips c.journal ++ ts ++ [trip] ∧ trip.Stalls env := by
  generalize hy : (.error .hung : Except Stop α) = y at h
  cases h with
  | ended _ hended => exact absurd hy.symm hended
  | @hung deeds trip m _ hdoes hconverses hhung =>
    refine ⟨trips (Deed.acts deeds), trip, ?_, hconverses.stalls hhung⟩
    rw [hconverses.journal_eq, trips_append, hdoes.trips_eq]
    rfl

/-- Whatever a peer does while a client talks to it, an operation comes back, unless the last of its
round trips stalls: all is said in it, and then the shutdown of the stream waits for ever. Where no
stream stalls at its shutdown, every operation comes back. -/
theorem waits_forever_iff (env : Environment ω) (op : Operation) (c : Client ω) :
    ((∀ r d, ¬(perform env op).Returns c r d) ↔
      ∃ ts trip, trips ((perform env op).final c).journal = trips c.journal ++ ts ++ [trip] ∧
        trip.Stalls env) ∧
    ((∀ w stream w', env.connect w = (.ok stream, w') → stream.onShutdown ≠ .hang) →
      ∃ r d, (perform env op).Returns c r d) := by
  have hwaits : ∀ d, (perform env op).Hangs c d →
      ∃ ts trip, trips d.journal = trips c.journal ++ ts ++ [trip] ∧ trip.Stalls env := by
    intro d h
    obtain ⟨deeds, -, hcomes⟩ := perform_follows c.session op c _ d rfl (leads_of_hangs h)
    exact hcomes.stalls
  constructor
  · constructor
    · intro hnever
      rcases returns_or_hangs (perform env op) c with ⟨r, d, h⟩ | ⟨d, h⟩
      · exact absurd h (hnever r d)
      · rw [final_of_hangs h]
        exact hwaits d h
    · rintro ⟨ts, trip, htrips, hstalls⟩ r d h
      obtain ⟨deeds, -, hdoes⟩ := (perform_follows c.session op).of_returns h
      rw [final_of_returns h, hdoes.trips_eq, List.append_assoc,
        List.append_cancel_left_eq] at htrips
      have hheld : trip.Held env := hdoes.held trip (by rw [htrips]; simp)
      exact hheld.not_stalls hstalls
  · intro heasy
    rcases returns_or_hangs (perform env op) c with h | ⟨d, h⟩
    · exact h
    · obtain ⟨ts, trip, -, k, w, w', left, -, hconnect, -, hs⟩ := hwaits d h
      exact absurd hs (heasy w k.stream w' hconnect)

/-- A peer that neither takes nor brings a byte, and never flushes, but lets itself be shut down: the
client gives up when its time is over. -/
theorem waits_forever_iff_deaf :
    ∃ (env : Environment (List Stream)) (c d : Client (List Stream)),
      (∀ w stream w', env.connect w = (.ok stream, w') → stream.reads = [.hang] ∧
        stream.writes = [.hang] ∧ stream.onFlush = .hang ∧ stream.onShutdown ≠ .hang) ∧
      (perform env (.register "ada")).Returns c (.error .timeout) d := by
  let deaf : Stream := ⟨[.hang], [.hang], .hang, .done, [], false⟩
  let env : Environment (List Stream) := { inTurn with connect := fun w => (.ok deaf, w) }
  let c : Client (List Stream) := .new []
  have hdeaf : ∀ w stream w', env.connect w = (.ok stream, w') → stream.reads = [.hang] ∧
      stream.writes = [.hang] ∧ stream.onFlush = .hang ∧ stream.onShutdown ≠ .hang := by
    rintro w stream w' hconnect
    cases hconnect
    exact ⟨rfl, rfl, rfl, by decide⟩
  obtain ⟨r, d, h⟩ := (waits_forever_iff env (.register "ada") c).2 fun w stream w' hconnect =>
    (hdeaf w stream w' hconnect).2.2.2
  have hrun : (ended (perform env (.register "ada") c)).any (fun p =>
      decide (p.1 = .error .timeout)) = true := by
    decide +kernel
  obtain ⟨⟨r', d'⟩, h', hrun⟩ := (Option.any_eq_true _ _).mp hrun
  obtain ⟨rfl, rfl⟩ := returns_unique h h'
  have hr : r = .error .timeout := of_decide_eq_true hrun
  exact ⟨env, c, d, hdeaf, hr ▸ h⟩

/-- The server registers the client, and then the stream does not let itself be shut down: the client
never hears that it is registered. -/
theorem registered_and_waiting :
    ∃ c : Client (List Stream), Reachable inTurn c ∧
      (∀ w, ∃ result w', inTurn.connect w = (result, w')) ∧
      ∀ r d, ¬(perform inTurn (.register "ada")).Returns c r d := by
  let stream : Stream :=
    ⟨[.data ([3, 52, 8, 16, 0, 0, 0] ++ List.replicate 16 7)], [], .done, .hang, [], false⟩
  let c : Client (List Stream) := .new [stream]
  have hrun : (ended (perform inTurn (.register "ada") c)).isNone = true := by
    decide +kernel
  refine ⟨c, .new _, fun w => ⟨_, _, rfl⟩, fun r d h => ?_⟩
  have hsome : ended (perform inTurn (.register "ada") c) = some (r, d) := h
  rw [hsome] at hrun
  cases hrun

end Client

end Courier
