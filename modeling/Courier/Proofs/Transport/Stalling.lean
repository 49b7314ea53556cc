import Courier.Proofs.Hanging
import Courier.Proofs.Transport.Receiving
import Courier.Proofs.Transport.Sending

namespace Courier

namespace Stream

theorem drain_ne_hung (limit enough now : Nat) (buffer : Bytes) (ws : List WriteEvent) :
    (drain (some limit) enough now buffer ws).progress ≠ .hung := by
  induction ws generalizing now buffer with
  | nil => simp [drain]
  | cons e es ih =>
    unfold drain
    split
    · simp
    cases e with
    | accept n =>
      simp only
      split
      · simp
      · exact ih now (buffer.drop n)
    | refuse => simp
    | fault f => simp
    | hang =>
      simp only
      split
      · simp
      · simp [stuck]
    | pause ms due =>
      simp only
      split
      · simp
      split
      · exact ih _ buffer
      · simp

theorem fill_ne_hung (limit now : Nat) (buffer : Bytes) (es : List ReadEvent) :
    (fill (some limit) now buffer es).progress ≠ .hung := by
  induction es generalizing now buffer with
  | nil => simp [fill]
  | cons e es ih =>
    unfold fill
    cases e with
    | data bytes =>
      simp only
      split
      · simp
      · exact ih now (buffer ++ bytes)
    | ended => simp
    | fault f => simp
    | hang => simp [stuck]
    | pause ms due =>
      simp only
      split
      · exact ih _ buffer
      · simp

end Stream

namespace Connection

open Courier.Action

section Sending

theorem writeOut_ends (limit enough : Nat) : (writeOut (some limit) enough).Ends := by
  intro k l h
  unfold Hangs writeOut at h
  simp only at h
  split at h
  · cases h
  · cases h
  · cases h
  · cases h
  · rename_i hp
    exact Stream.drain_ne_hung _ _ _ _ _ hp

theorem settle_ends (limit : Nat) (s : Settle) : (settle (some limit) s).Ends := by
  intro k l h
  cases s with
  | done | fault f | hang => cases h

theorem flush_ends (limit : Nat) : (flush (some limit)).Ends :=
  (writeOut_ends limit 0).bind fun _ => ends_get_bind fun _ => settle_ends limit _

theorem await_ends (limit : Nat) : (await limit).Ends := by
  intro k l h
  unfold Hangs await at h
  split at h
  · cases h
  · cases h

theorem makeRoom_ends (limit : Nat) : (makeRoom limit).Ends := by
  refine ends_get_bind fun k => ?_
  split
  · refine (writeOut_ends limit _).bind fun done => ?_
    cases done with
    | false => exact await_ends limit
    | true =>
      refine ends_get_bind fun m => ?_
      split
      · exact await_ends limit
      · exact settle_ends limit _
  · exact ends_pure _

theorem feed_ends (limit : Nat) (chunk : Bytes) : (feed limit chunk).Ends :=
  (makeRoom_ends limit).bind fun _ => ends_modify _

theorem send_ends (message : Bytes) : (send message).Ends := by
  unfold send
  split
  · exact ends_pure _
  refine ends_get_bind fun k => ?_
  refine (ends_forM (feed_ends _) _).bind fun _ => ?_
  exact (flush_ends _).bind fun _ => ends_modify _

end Sending

section Receiving

theorem nextFrame_ends (limit : Nat) : (nextFrame (some limit)).Ends := by
  intro k l h
  unfold Hangs nextFrame at h
  split at h
  · cases h
  split at h
  · cases h
  simp only at h
  split at h
  · cases h
  · split at h
    · cases h
    · cases h
  · cases h
  · cases h
  · rename_i hp
    exact Stream.fill_ne_hung _ _ _ _ hp

theorem collect_ends (limit wanted most : Nat) (data : Bytes) (frames : Nat) :
    (collect (some limit) wanted most data frames).Ends := by
  induction most generalizing data frames with
  | zero => exact ends_pure _
  | succ most ih =>
    unfold collect
    split
    · exact ends_pure _
    · exact (nextFrame_ends limit).bind fun _ => ih _ _

theorem receiveAnnounced_ends (head : Nat)
    (announced : Bytes → List Event × Except TransferError Nat) :
    (receiveAnnounced head announced).Ends := by
  refine ends_get_bind fun k => (collect_ends _ _ _ _ _).bind fun collected => ?_
  refine (ends_modify _).bind fun _ => (ends_ofExcept _).bind fun total => ?_
  refine (collect_ends _ _ _ _ _).bind fun collected => ?_
  exact (ends_modify _).bind fun _ => ends_pure _

/-- What is to be written, and how the stream is flushed and shut down, stays as it is. -/
def SameOutgoing (k left : Connection) : Prop :=
  left.outbound = k.outbound ∧ left.stream.onFlush = k.stream.onFlush ∧
    left.stream.onShutdown = k.stream.onShutdown

theorem SameOutgoing.trans {k m left : Connection} (h : SameOutgoing k m)
    (h' : SameOutgoing m left) : SameOutgoing k left :=
  ⟨h'.1.trans h.1, h'.2.1.trans h.2.1, h'.2.2.trans h.2.2⟩

theorem OnlyRead.sameOutgoing {k left : Connection} (h : OnlyRead k left) :
    SameOutgoing k left := by
  unfold OnlyRead at h
  rw [h]
  exact ⟨rfl, rfl, rfl⟩

theorem receiveAnnounced_sameOutgoing (head : Nat)
    (announced : Bytes → List Event × Except TransferError Nat) :
    (receiveAnnounced head announced).Moves SameOutgoing := by
  have hrefl (k : Connection) : SameOutgoing k k := ⟨rfl, rfl, rfl⟩
  have htrans (k m left : Connection) (h : SameOutgoing k m) (h' : SameOutgoing m left) :
      SameOutgoing k left := h.trans h'
  have hcollect (deadline : Option Nat) (wanted most : Nat) (data : Bytes) (frames : Nat) :
      (collect deadline wanted most data frames).Moves SameOutgoing :=
    (collect_onlyRead deadline wanted most data frames).mono fun _ _ h => h.sameOutgoing
  refine moves_get_bind fun k => (hcollect _ _ _ _ _).bind htrans fun collected => ?_
  refine (moves_modify fun _ => ⟨rfl, rfl, rfl⟩).bind htrans fun _ => ?_
  refine (moves_ofExcept hrefl _).bind htrans fun total => ?_
  refine (hcollect _ _ _ _ _).bind htrans fun collected => ?_
  refine (moves_modify fun _ => ⟨rfl, rfl, rfl⟩).bind htrans fun _ => ?_
  exact moves_pure hrefl _

end Receiving

/-- The connection after its shutdown was tried. -/
def shutDown (k : Connection) : Connection :=
  { k with stream := { k.stream with shutdown := true } }

/-- When all is written and flushed, closing waits for ever just if the shutdown does. -/
theorem close_hangs_iff {k l : Connection} (ho : k.outbound = [])
    (hf : k.stream.onFlush = .done) :
    close.Hangs k l ↔ k.stream.onShutdown = .hang ∧ l = k.shutDown := by
  have hclose : close.Hangs k l ↔ (settle none k.stream.onShutdown).Hangs k.shutDown l :=
    (hangs_bind_of_ok (flush_of_flushed ho hf)).trans
      (hangs_bind_of_ok (returns_modify.mpr ⟨rfl, rfl⟩))
  rw [hclose]
  cases k.stream.onShutdown with
  | done | fault f => simp [Hangs, settle]
  | hang => simp [Hangs, settle, eq_comm]

end Connection

end Courier
