import Courier.Proofs.Transport.Metering
import Courier.Proofs.Transport.Receiving

namespace Courier

theorem StreamEnd.available_isPrefix (stop : StreamEnd) (s : Bytes) : stop.available s <+: s := by
  cases stop with
  | closed => exact List.prefix_refl _
  | broken f => exact List.take_prefix _ _
  | silent => exact List.take_prefix _ _

theorem StreamEnd.take_of_le_available {stop : StreamEnd} {s : Bytes} {n : Nat}
    (h : n ≤ (stop.available s).length) : (stop.available s).take n = s.take n := by
  obtain ⟨rest, hs⟩ := stop.available_isPrefix s
  calc (stop.available s).take n
      = (stop.available s ++ rest).take n := (List.take_append_of_le_length h).symm
    _ = s.take n := by rw [hs]

namespace Connection

/-- The events and the outcome of receiving a message from the bytes `s` of a peer that then comes to
`stop`. The head is judged when all of it can be read, and only then. -/
def reference (head : Nat) (announced : Bytes → List Event × Except TransferError Nat) (s : Bytes)
    (stop : StreamEnd) : List Event × Except TransferError Bytes :=
  if (stop.available s).length < head then ([], .error stop.error)
  else
    ((announced (s.take head)).1, do
      let total ← (announced (s.take head)).2
      if (stop.available s).length < total then .error stop.error else .ok (s.take total))

section Reference

variable {s : Bytes} {stop : StreamEnd} {head : Nat}
  {announced : Bytes → List Event × Except TransferError Nat}

theorem reference_of_short (h : (stop.available s).length < head) :
    reference head announced s stop = ([], .error stop.error) :=
  if_pos h

theorem reference_of_refused (h : head ≤ (stop.available s).length) {e : TransferError}
    (he : (announced (s.take head)).2 = .error e) :
    reference head announced s stop = ((announced (s.take head)).1, .error e) := by
  rw [reference, if_neg (Nat.not_lt_of_le h), he]
  rfl

theorem reference_of_cut (h : head ≤ (stop.available s).length) {total : Nat}
    (ht : (announced (s.take head)).2 = .ok total) (hc : (stop.available s).length < total) :
    reference head announced s stop = ((announced (s.take head)).1, .error stop.error) := by
  rw [reference, if_neg (Nat.not_lt_of_le h), ht]
  exact congrArg (Prod.mk _) (if_pos hc)

theorem reference_of_present (h : head ≤ (stop.available s).length) {total : Nat}
    (ht : (announced (s.take head)).2 = .ok total) (hc : total ≤ (stop.available s).length) :
    reference head announced s stop = ((announced (s.take head)).1, .ok (s.take total)) := by
  rw [reference, if_neg (Nat.not_lt_of_le h), ht]
  exact congrArg (Prod.mk _) (if_neg (Nat.not_lt_of_le hc))

end Reference

/-- Receiving comes to what the reference says, and to nothing else. -/
structure Meets (head : Nat) (announced : Bytes → List Event × Except TransferError Nat)
    (s : Bytes) (stop : StreamEnd) (k left : Connection) : Prop where
  returns : (receiveAnnounced head announced).Returns k (reference head announced s stop).2 left
  /-- The head is judged as often as the reference does: once, or not at all. -/
  log_eq : left.log = k.log ++ (reference head announced s stop).1
  /-- A failure is not counted. -/
  failed : ∀ e, (reference head announced s stop).2 = .error e → left.metrics = k.metrics
  /-- A message has taken the frames that the longer of head and message needs, and is counted with
  them and its own length. -/
  received : ∀ total, (announced (s.take head)).2 = .ok total →
    max head total ≤ (stop.available s).length →
    left.metrics = k.metrics.map (·.messageReceived (Frame.count (max head total)) total) ∧
    left.Yields (k.clock + k.timeouts.receive)
      ((stop.available s).drop (Frame.count (max head total) * Frame.size)) stop

section Meets

variable {k : Connection} {s : Bytes} {stop : StreamEnd} {head : Nat}
  (announced : Bytes → List Event × Except TransferError Nat)
  (h : k.Yields (k.clock + k.timeouts.receive) (stop.available s) stop)

include h

theorem meets_of_short (hl : (stop.available s).length < head) :
    ∃ left, Meets head announced s stop k left := by
  have href : reference head announced s stop = _ := reference_of_short hl
  obtain ⟨left, hleft, hread⟩ := receiveAnnounced_of_short announced h hl
  refine ⟨left, ?_, ?_, fun _ _ => hread.metrics_eq, fun total _ hmax => ?_⟩
  · rw [href]
    exact hleft
  · rw [href, List.append_nil]
    exact hread.log_eq
  · exact absurd (Nat.le_trans (Nat.le_max_left head total) hmax) (Nat.not_le_of_lt hl)

theorem meets_of_refused (hl : head ≤ (stop.available s).length) {e : TransferError}
    (he : (announced (s.take head)).2 = .error e) : ∃ left, Meets head announced s stop k left := by
  have hhead := StreamEnd.take_of_le_available hl
  have href := reference_of_refused hl he
  obtain ⟨left, hleft, -, hread⟩ := receiveAnnounced_of_refused announced h hl (hhead ▸ he)
  rw [hhead] at hread
  refine ⟨left, ?_, ?_, fun _ _ => hread.metrics_eq, fun total ht => ?_⟩
  · rw [href]
    exact hleft
  · rw [href]
    exact hread.log_eq
  · cases he.symm.trans ht

theorem meets_of_cut (hl : head ≤ (stop.available s).length) {total : Nat}
    (ht : (announced (s.take head)).2 = .ok total) (hc : (stop.available s).length < total) :
    ∃ left, Meets head announced s stop k left := by
  have hhead := StreamEnd.take_of_le_available hl
  have href := reference_of_cut hl ht hc
  obtain ⟨left, hleft, hread⟩ := receiveAnnounced_of_cut announced h hl (hhead ▸ ht) hc
  rw [hhead] at hread
  refine ⟨left, ?_, ?_, fun _ _ => hread.metrics_eq, fun total' ht' hmax => ?_⟩
  · rw [href]
    exact hleft
  · rw [href]
    exact hread.log_eq
  · cases ht.symm.trans ht'
    exact absurd (Nat.le_trans (Nat.le_max_right head total) hmax) (Nat.not_le_of_lt hc)

theorem meets_of_present (hl : head ≤ (stop.available s).length) {total : Nat}
    (ht : (announced (s.take head)).2 = .ok total) (hc : total ≤ (stop.available s).length) :
    ∃ left, Meets head announced s stop k left := by
  have hhead := StreamEnd.take_of_le_available hl
  have href := reference_of_present hl ht hc
  obtain ⟨left, hleft, hy, hread⟩ := receiveAnnounced_of_present announced h hl (hhead ▸ ht) hc
  rw [hhead] at hread
  refine ⟨left, ?_, ?_, fun e he => ?_, fun total' ht' _ => ?_⟩
  · rw [href, ← StreamEnd.take_of_le_available hc]
    exact hleft
  · rw [href]
    exact hread.log_eq
  · rw [href] at he
    cases he
  · cases ht.symm.trans ht'
    exact ⟨hread.metrics_eq, hy⟩

/-- Receiving comes to what the bytes alone say. -/
theorem exists_meets (head : Nat) : ∃ left, Meets head announced s stop k left := by
  by_cases hl : (stop.available s).length < head
  · exact meets_of_short announced h hl
  have hle : head ≤ (stop.available s).length := Nat.le_of_not_lt hl
  cases ht : (announced (s.take head)).2 with
  | error e => exact meets_of_refused announced h hle ht
  | ok total =>
    by_cases hc : (stop.available s).length < total
    · exact meets_of_cut announced h hle ht hc
    · exact meets_of_present announced h hle ht (Nat.le_of_not_lt hc)

end Meets

/-- An empty message behind an empty head is there without a read. -/
theorem receiveAnnounced_nothing (k : Connection)
    {announced : Bytes → List Event × Except TransferError Nat}
    (h : (announced []).2 = .ok 0) :
    (receiveAnnounced 0 announced).Returns k (.ok [])
      { k with log := k.log ++ (announced []).1 } := by
  have hmetrics : k.metrics.map (·.messageReceived 0 0) = k.metrics := by
    cases k.metrics with
    | none => rfl
    | some m => exact congrArg some m.messageReceived_zero
  refine Action.returns_get_bind.mpr ?_
  refine (Action.returns_bind_of_ok (Action.returns_pure.mpr ⟨rfl, rfl⟩)).mpr ?_
  refine (Action.returns_bind_of_ok (Action.returns_modify.mpr ⟨rfl, rfl⟩)).mpr ?_
  refine (Action.returns_bind_of_ok (Action.returns_ofExcept.mpr ⟨h.symm, rfl⟩)).mpr ?_
  refine (Action.returns_bind_of_ok (Action.returns_pure.mpr ⟨rfl, rfl⟩)).mpr ?_
  refine (Action.returns_bind_of_ok (Action.returns_modify.mpr ⟨rfl, rfl⟩)).mpr ?_
  refine Action.returns_pure.mpr ⟨rfl, ?_⟩
  simp only [hmetrics, List.take_nil]

/-- A message whose head announces its length is received as its bytes say, however they come. Fewer
bytes than the head are a failure without a judgement. The head is judged once, by its own bytes, and
what refuses it ends the reading. More announced than can be read is a failure; otherwise the message
is the bytes announced, be they fewer than the head or none. An empty message behind an empty head
leaves the stream alone. -/
theorem receiveAnnounced_reference {k : Connection} {s : Bytes} {stop : StreamEnd}
    (hopen : k.interrupted = false)
    (hs : Stream.Brings (k.clock + k.timeouts.receive) k.clock k.stream.reads s stop) (head : Nat)
    (announced : Bytes → List Event × Except TransferError Nat) :
    ∃ left, Meets head announced (k.inbound ++ s) stop k left ∧
      (head = 0 → (announced []).2 = .ok 0 →
        left = { k with log := k.log ++ (announced []).1 }) := by
  obtain ⟨left, hmeets⟩ := exists_meets announced (.live hopen hs) head
  refine ⟨left, hmeets, ?_⟩
  rintro rfl h
  exact (Action.returns_unique hmeets.returns (receiveAnnounced_nothing k h)).2

/-- 1500 bytes in two pieces with a pause between them. A head of 1030 bytes that announces three is
received as these three when the stream is closed then, and fails when it breaks, since the second
frame is not whole. Nothing behind no head is received without a read. -/
theorem receiveAnnounced_reference_pieces :
    ∃ (pieces : List ReadEvent) (closed broken left failed same : Connection),
      closed.stream.reads = pieces ++ [.ended] ∧
      broken.stream.reads = pieces ++ [.fault ⟨"reset", false⟩] ∧
      closed.metrics = some .zero ∧ broken.metrics = some .zero ∧
      (receiveAnnounced 1030 fun _ => ([], .ok 3)).Returns closed (.ok [1, 1, 1]) left ∧
      left.metrics = some (Metrics.zero.messageReceived 2 3) ∧
      (receiveAnnounced 1030 fun _ => ([], .ok 3)).Returns broken
        (.error (.readFailed "reset")) failed ∧
      failed.metrics = some .zero ∧
      (receiveAnnounced 0 fun _ => ([], .ok 0)).Returns closed (.ok []) same ∧ same = closed := by
  let first : Bytes := List.replicate 700 1
  let second : Bytes := List.replicate 800 2
  let pieces : List ReadEvent := [.data first, .pause 10 none, .data second]
  let ending (e : ReadEvent) : Connection :=
    .onStream ⟨pieces ++ [e], [], .done, .done, [], false⟩ 0 ⟨100, 50⟩ (some .zero)
  let s : Bytes := first ++ (second ++ [])
  have hbrings {e : ReadEvent} {stop : StreamEnd} (h : Stream.Brings 50 10 [e] [] stop) :
      Stream.Brings 50 0 (ending e).stream.reads s stop :=
    .data (.pause (by decide) (.data h))
  obtain ⟨left, hleft, -⟩ := receiveAnnounced_reference (k := ending .ended) rfl
    (hbrings .ended) 1030 fun _ => ([], .ok 3)
  obtain ⟨failed, hfailed, -⟩ :=
    receiveAnnounced_reference (k := ending (.fault ⟨"reset", false⟩)) rfl (hbrings .fault) 1030
      fun _ => ([], .ok 3)
  obtain ⟨same, hsame, huntouched⟩ := receiveAnnounced_reference (k := ending .ended) rfl
    (hbrings .ended) 0 fun _ => ([], .ok 0)
  have hthree : (reference 1030 (fun _ => ([], .ok 3)) ((ending .ended).inbound ++ s) .closed).2 =
      .ok [1, 1, 1] := by
    decide +kernel
  have hreset : (reference 1030 (fun _ => ([], .ok 3))
      ((ending (.fault ⟨"reset", false⟩)).inbound ++ s) (.broken ⟨"reset", false⟩)).2 =
      .error (.readFailed "reset") := by
    decide +kernel
  have hnothing : (reference 0 (fun _ => ([], .ok 0)) ((ending .ended).inbound ++ s) .closed).2 =
      .ok [] := by
    decide +kernel
  have hcounted := (hleft.received 3 rfl (by decide +kernel)).1
  have huncounted := hfailed.failed _ hreset
  exact ⟨pieces, ending .ended, ending (.fault ⟨"reset", false⟩), left, failed, same, rfl, rfl, rfl,
    rfl, hthree ▸ hleft.returns, hcounted, hreset ▸ hfailed.returns, huncounted,
    hnothing ▸ hsame.returns, huntouched rfl rfl⟩

end Connection

end Courier
