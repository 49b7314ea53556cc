import Courier.Proofs.Client.Stalling
import Courier.Proofs.Transport.Patience

namespace Courier

open Courier.Action

namespace Connection

variable {k : Connection}

/-- There at once, or before the time for receiving is up. -/
def InTime (k : Connection) (time : Nat) : Prop :=
  time = k.clock ∨ time < k.clock + k.timeouts.receive

section Receiving

variable {head : Nat} {announced : Bytes → List Event × Except TransferError Nat}
  (hexact : 0 < k.timeouts.receive →
    ∀ r, k.unhurried head announced ≠ some (k.clock + k.timeouts.receive, r))

include hexact

/-- Only what is over just when the deadline is could be in time by it and not before it. -/
theorem inTime_iff {time : Nat} {r : Except TransferError Bytes}
    (h : k.unhurried head announced = some (time, r)) :
    k.InTime time ↔ time ≤ k.clock + k.timeouts.receive := by
  constructor
  · rintro (rfl | hless)
    · exact Nat.le_add_right _ _
    · exact Nat.le_of_lt hless
  · intro hle
    rcases Nat.lt_or_eq_of_le hle with hless | rfl
    · exact .inr hless
    · rcases Nat.eq_zero_or_pos k.timeouts.receive with hzero | hpos
      · exact .inl (by rw [hzero, Nat.add_zero])
      · exact absurd h (hexact hpos r)

theorem receives_of_inTime {time : Nat} {r : Except TransferError Bytes}
    (h : k.unhurried head announced = some (time, r)) (ht : k.InTime time) :
    ∃ left, (receiveAnnounced head announced).Returns k r left ∧ left.clock = time := by
  rcases receiveAnnounced_cases head announced k with ⟨y, left, hy, -, hreceive⟩ | ⟨-, hlate⟩
  · obtain ⟨rfl, rfl⟩ : left.clock = time ∧ y = r := by simpa [hy] using h
    exact ⟨left, hreceive, rfl⟩
  · exact absurd ((inTime_iff hexact h).mp ht) (Nat.not_le_of_lt (hlate time r h))

theorem times_out
    (hlate : ∀ time r, k.unhurried head announced = some (time, r) → ¬k.InTime time) :
    ∃ left, (receiveAnnounced head announced).Returns k (.error .timeout) left ∧
      left.clock = k.clock + k.timeouts.receive := by
  rcases receiveAnnounced_cases head announced k with ⟨y, left, hy, hle, -⟩ | ⟨hbound, -⟩
  · exact absurd ((inTime_iff hexact hy).mpr hle) (hlate _ _ hy)
  · exact hbound

theorem receives_iff {message : Bytes} :
    (∃ left, (receiveAnnounced head announced).Returns k (.ok message) left) ↔
      ∃ total time, (announced (k.coming.take head)).2 = .ok total ∧
        k.SettledAt (max head total) time (.ok ()) ∧ k.InTime time ∧
        message = k.coming.take total := by
  constructor
  · rintro ⟨left, hleft⟩
    rcases receiveAnnounced_cases head announced k with ⟨y, m, hy, hle, hm⟩ | ⟨⟨m, hm, -⟩, -⟩
    · obtain ⟨rfl, rfl⟩ := returns_unique hleft hm
      obtain ⟨total, htotal, hsettled, hmessage⟩ := unhurried_eq_ok_iff.mp hy
      exact ⟨total, left.clock, htotal, hsettled, (inTime_iff hexact hy).mpr hle, hmessage⟩
    · cases (returns_unique hleft hm).1
  · rintro ⟨total, time, htotal, hsettled, ht, rfl⟩
    obtain ⟨left, hleft, -⟩ := receives_of_inTime hexact
      (unhurried_eq_ok_iff.mpr ⟨total, htotal, hsettled, rfl⟩) ht
    exact ⟨left, hleft⟩

end Receiving

/-- When all is said, closing takes no time, even if it stalls. -/
theorem clock_close_final (ho : k.outbound = []) (hf : k.stream.onFlush = .done) :
    (close.final k).clock = k.clock := by
  unfold close
  rw [final_bind_of_ok (flush_of_flushed ho hf),
    final_bind_of_ok (returns_modify.mpr ⟨rfl, rfl⟩)]
  change ((settle none k.stream.onShutdown).final k.shutDown).clock = k.clock
  cases k.stream.onShutdown with
  | done | fault f | hang => rfl

theorem clock_awaitAnswer_final_le (expected : ResponseCode) (ho : k.outbound = [])
    (hf : k.stream.onFlush = .done) :
    ((awaitAnswer expected).final k).clock ≤ k.clock + k.timeouts.receive := by
  unfold awaitAnswer
  rcases returns_or_hangs
    (receiveAnnounced ResponseHeader.size (ResponseHeader.announced expected)) k with
    ⟨y, left, hreceive⟩ | ⟨left, hangs⟩
  · have hclock := clock_le_of_receiveAnnounced hreceive
    obtain ⟨hout, hflush, -⟩ := receiveAnnounced_sameOutgoing _ _ _ _ _ hreceive
    cases y with
    | error e =>
      rw [final_of_returns (returns_bind_of_error hreceive)]
      exact hclock
    | ok message =>
      have hclose := clock_close_final (hout.trans ho) (hflush.trans hf)
      rw [final_bind_of_ok hreceive]
      cases Response.decode message with
      | error e =>
        rw [final_of_returns (returns_bind_of_error (returns_ofExcept.mpr ⟨rfl, rfl⟩))]
        exact hclock
      | ok response =>
        rw [final_bind_of_ok (returns_ofExcept.mpr ⟨rfl, rfl⟩)]
        rcases returns_or_hangs close left with ⟨closed, m, hm⟩ | ⟨m, hm⟩
        · rw [final_of_returns hm] at hclose
          rw [final_bind_of_ok (returns_attempt.mpr ⟨closed, rfl, hm⟩),
            final_of_returns (returns_pure.mpr ⟨rfl, rfl⟩), hclose]
          exact hclock
        · rw [final_of_hangs hm] at hclose
          rw [final_of_hangs (hangs_bind.mpr (.inl (hangs_attempt.mpr hm))), hclose]
          exact hclock
  · exact absurd hangs (receiveAnnounced_ends _ _ _ _)

theorem clock_ask_final_le (request : Request) (expected : ResponseCode) (k : Connection) :
    ((ask request expected).final k).clock ≤
      k.clock + k.timeouts.send + k.timeouts.receive := by
  unfold ask
  cases hencode : request.encode with
  | error e =>
    rw [final_of_returns (returns_bind_of_error (returns_ofExcept.mpr ⟨rfl, rfl⟩))]
    omega
  | ok message =>
    rw [final_bind_of_ok (returns_ofExcept.mpr ⟨rfl, rfl⟩)]
    rcases returns_or_hangs (send message) k with ⟨y, sent, hsend⟩ | ⟨sent, hangs⟩
    · have hclock := clock_le_of_send hsend
      cases y with
      | error e =>
        rw [final_of_returns (returns_bind_of_error hsend)]
        omega
      | ok _ =>
        obtain ⟨ho, hf⟩ := send_flushed (Request.ne_nil_of_encode hencode) hsend
        have htimeouts : sent.timeouts = k.timeouts :=
          congrArg (·.timeouts) (send_onlyWritten message _ _ sent hsend)
        have hawait := clock_awaitAnswer_final_le expected ho hf
        rw [htimeouts] at hawait
        rw [final_bind_of_ok hsend]
        exact Nat.le_trans hawait (Nat.add_le_add_right hclock _)
    · exact absurd hangs (send_ends message _ _)

end Connection

namespace Client

variable {ω α : Type} {env : Environment ω} {c : Client ω}

/-- A conversation takes the time that is spent on its connection. -/
theorem clock_converse_final_le {request : Request} {talk : Action Connection α}
    {answer : α → Option ResponsePayload} {limit : Nat} (hc : c.clock ≤ limit)
    (h : ∀ stream, (talk.final (opening env c stream)).clock ≤ limit) :
    ((converse env request talk answer).final c).clock ≤ limit := by
  obtain ⟨y, hy⟩ := leads_final (converse env request talk answer) c
  rcases converse_cases hy with ⟨e, w, -, -, hd⟩ | ⟨stream, w, left, -, htalk, hd⟩
  · rw [hd]
    exact hc
  · rw [hd]
    have hspent := h stream
    rw [final_of_leads htalk] at hspent
    exact hspent

/-- The time for a message is for the whole of it. Without the deadline, receiving would come to
`unhurried`; and so it does under it, if that is in time, and what is there at once is in time even
if there is no time at all. Otherwise receiving times out just at the deadline, however much has
come by then. So an exchange takes no longer than the times for sending and for receiving. -/
theorem message_is_due_as_a_whole (head : Nat)
    (announced : Bytes → List Event × Except TransferError Nat) (k : Connection)
    (hexact : 0 < k.timeouts.receive →
      ∀ r, k.unhurried head announced ≠ some (k.clock + k.timeouts.receive, r)) :
    (∀ time r, k.unhurried head announced = some (time, r) → k.InTime time →
      ∃ left, (Connection.receiveAnnounced head announced).Returns k r left ∧ left.clock = time) ∧
    ((∀ time r, k.unhurried head announced = some (time, r) → ¬k.InTime time) →
      ∃ left, (Connection.receiveAnnounced head announced).Returns k (.error .timeout) left ∧
        left.clock = k.clock + k.timeouts.receive) ∧
    (∀ message,
      (∃ left, (Connection.receiveAnnounced head announced).Returns k (.ok message) left) ↔
        ∃ total time, (announced (k.coming.take head)).2 = .ok total ∧
          k.SettledAt (max head total) time (.ok ()) ∧ k.InTime time ∧
          message = k.coming.take total) ∧
    (∀ message, ∃ r sent, (Connection.send message).Returns k r sent ∧
      sent.clock ≤ k.clock + k.timeouts.send) ∧
    ∀ (ω : Type) (env : Environment ω) (request : Request) (expected : ResponseCode)
      (c : Client ω), ((ask env request expected).final c).clock ≤
        c.clock + env.timeouts.send + env.timeouts.receive := by
  refine ⟨fun time r h ht => Connection.receives_of_inTime hexact h ht,
    Connection.times_out hexact, fun message => Connection.receives_iff hexact,
    fun message => ?_, fun ω env request expected c => ?_⟩
  · rcases returns_or_hangs (Connection.send message) k with ⟨r, sent, hsend⟩ | ⟨sent, hangs⟩
    · exact ⟨r, sent, hsend, Connection.clock_le_of_send hsend⟩
    · exact absurd hangs (Connection.send_ends message _ _)
  · refine clock_converse_final_le (by omega) fun stream => ?_
    exact Connection.clock_ask_final_le request expected (opening env c stream)

/-- A response of two full frames, whose header announces as much. -/
def twoFrames : Bytes :=
  [3, 54, 8, 249, 7, 0, 0] ++ List.replicate 693 9 ++ List.replicate 800 9 ++ List.replicate 548 9

/-- A connection on which these come in three pieces, with a pause after each of the first two. -/
def trickling (pause : Nat) : Connection :=
  Connection.onStream (heedful [.data ([3, 54, 8, 249, 7, 0, 0] ++ List.replicate 693 9),
    .pause pause none, .data (List.replicate 800 9), .pause pause none,
    .data (List.replicate 548 9)]) 3 ⟨100, 50⟩ none

theorem unhurried_trickling (pause : Nat) :
    (trickling pause).unhurried ResponseHeader.size (ResponseHeader.announced .keyExchange) =
      some (3 + pause + pause, .ok twoFrames) := by
  have hschedule : (trickling pause).schedule =
      [(3, .data ([3, 54, 8, 249, 7, 0, 0] ++ List.replicate 693 9)),
        (3 + pause, .data (List.replicate 800 9)),
        (3 + pause + pause, .data (List.replicate 548 9)), (3 + pause + pause, .closed)] := by
    simp [-List.reduceReplicate, trickling, Connection.onStream, heedful, Connection.schedule,
      Stream.arrivals]
  have hheld : (trickling pause).held = [] := rfl
  have hcoming : (trickling pause).coming = twoFrames := by
    simp [-List.reduceReplicate, Connection.coming, hschedule, hheld, Stream.content, twoFrames]
  have hlength : twoFrames.length = 2048 := by simp [-List.reduceReplicate, twoFrames]
  rw [Connection.unhurried_eq_ok_iff, hcoming]
  refine ⟨2048, rfl, ?_, by rw [← hlength, List.take_length]⟩
  rw [← Connection.settled_eq_some_iff]
  simp [-List.reduceReplicate, Connection.settled, hheld, hschedule, Stream.settled, Frame.count,
    Frame.size, ResponseHeader.size]

/-- With pauses of 20 the second frame is there after 40, which is in time. With pauses of 30 it
would be there after 60, which is not, and the first frame, there after 30, does not put the end
off. -/
theorem message_is_due_as_a_whole_trickling :
    (∃ left, (Connection.receiveAnnounced ResponseHeader.size
        (ResponseHeader.announced .keyExchange)).Returns (trickling 20) (.ok twoFrames) left ∧
      left.clock = 43) ∧
    ∃ left, (Connection.receiveAnnounced ResponseHeader.size
        (ResponseHeader.announced .keyExchange)).Returns (trickling 30) (.error .timeout) left ∧
      left.clock = 53 := by
  have hprompt := unhurried_trickling 20
  have hslow := unhurried_trickling 30
  have hlimit (pause : Nat) :
      (trickling pause).clock + (trickling pause).timeouts.receive = 53 := rfl
  obtain ⟨hintime, -⟩ := message_is_due_as_a_whole ResponseHeader.size
    (ResponseHeader.announced .keyExchange) (trickling 20) (by simp [hprompt, hlimit])
  obtain ⟨-, hlate, -⟩ := message_is_due_as_a_whole ResponseHeader.size
    (ResponseHeader.announced .keyExchange) (trickling 30) (by simp [hslow, hlimit])
  refine ⟨hintime 43 (.ok twoFrames) hprompt (.inr (by decide)), hlate fun time r h => ?_⟩
  obtain ⟨rfl, -⟩ : 63 = time ∧ .ok twoFrames = r := by simpa [hslow] using h
  rintro (hnow | hless)
  · exact absurd hnow (by decide)
  · exact absurd hless (by decide)

end Client

end Courier
