import Courier.Proofs.Transport.Delivery
import Courier.Proofs.Transport.Sending

namespace Courier

namespace Metrics

theorem messageSent_zero (m : Metrics) : m.messageSent 0 0 = m := by
  simp [messageSent]

theorem messageReceived_zero (m : Metrics) : m.messageReceived 0 0 = m := by
  simp [messageReceived]

/-- Messages may be counted one by one or all at once. -/
theorem messageSent_add (m : Metrics) (f g b d : Nat) :
    (m.messageSent f b).messageSent g d = m.messageSent (f + g) (b + d) := by
  simp only [messageSent, UInt64.ofNat_add, UInt64.add_assoc]

theorem messageReceived_add (m : Metrics) (f g b d : Nat) :
    (m.messageReceived f b).messageReceived g d = m.messageReceived (f + g) (b + d) := by
  simp only [messageReceived, UInt64.ofNat_add, UInt64.add_assoc]

end Metrics

namespace Connection

/-- Nothing is counted. -/
def Uncounted (k left : Connection) : Prop :=
  left.metrics = k.metrics

section Uncounted

variable {α β : Type}

theorem Uncounted.refl (k : Connection) : Uncounted k k :=
  rfl

theorem Uncounted.of_onlyRead {k left : Connection} (h : OnlyRead k left) : Uncounted k left :=
  h.metrics_eq

theorem uncounted_bind {x : Action Connection α} {f : α → Action Connection β}
    (hx : x.Moves Uncounted) (hf : ∀ a, (f a).Moves Uncounted) : (x >>= f).Moves Uncounted := by
  apply hx.bind _ hf
  intro k m left h h'
  exact Eq.trans h' h

theorem uncounted_of_quietly {x : Action Connection α} (hx : x.Moves QuietlyWritten) :
    x.Moves Uncounted :=
  hx.mono fun _ _ h => h.2

theorem close_uncounted : close.Moves Uncounted := by
  apply uncounted_bind (uncounted_of_quietly (flush_quietlyWritten none))
  intro _
  refine uncounted_bind (Action.moves_modify fun _ => rfl) fun _ => ?_
  apply Action.moves_get_bind
  intro k
  exact uncounted_of_quietly (settle_quietlyWritten none k.stream.onShutdown)

theorem collect_uncounted (deadline : Option Nat) (wanted most : Nat) (data : Bytes)
    (frames : Nat) : (collect deadline wanted most data frames).Moves Uncounted := by
  induction most generalizing data frames with
  | zero => exact Action.moves_pure Uncounted.refl _
  | succ most ih =>
    unfold collect
    split
    · exact Action.moves_pure Uncounted.refl _
    · have hnext : (nextFrame deadline).Moves Uncounted :=
        (nextFrame_onlyRead deadline).mono fun _ _ h => Uncounted.of_onlyRead h
      apply uncounted_bind hnext
      intro frame
      exact ih _ _

end Uncounted

/-- A message that went out is counted, with its frames and without the padding. An empty one adds
nothing. -/
theorem send_counted {message : Bytes} {k left : Connection}
    (h : (send message).Returns k (.ok ()) left) :
    left.metrics =
      k.metrics.map (·.messageSent (Frame.count message.length) message.length) := by
  unfold send at h
  split at h
  · rename_i hempty
    obtain ⟨-, rfl⟩ := Action.returns_pure.mp h
    subst hempty
    cases hm : left.metrics with
    | none => rfl
    | some m => exact congrArg some (m.messageSent_zero).symm
  rw [Action.returns_get_bind] at h
  obtain ⟨_, m, hfeed, h⟩ := Action.returns_bind_ok.mp h
  obtain ⟨_, n, hflush, h⟩ := Action.returns_bind_ok.mp h
  obtain ⟨-, rfl⟩ := Action.returns_modify.mp h
  have hm : m.metrics = k.metrics := (feeds_quietlyWritten _ _ k _ m hfeed).2
  have hn : n.metrics = m.metrics := (flush_quietlyWritten _ m _ n hflush).2
  rw [hn, hm]

end Connection

end Courier
