import Courier.Proofs.Action
import Courier.Transport.Connection

namespace Courier

namespace Stream

theorem drain_nil (deadline : Option Nat) (enough now : Nat) (ws : List WriteEvent) :
    drain deadline enough now [] ws = ⟨.done, now, [], [], ws⟩ := by
  cases ws <;> simp [drain]

theorem drain_buffer_of_done {deadline : Option Nat} {enough : Nat} (now : Nat) (buffer : Bytes)
    (ws : List WriteEvent) (h : (drain deadline enough now buffer ws).progress = .done) :
    (drain deadline enough now buffer ws).buffer = [] := by
  induction ws generalizing now buffer with
  | nil => rfl
  | cons e es ih =>
    unfold drain at h ⊢
    split
    · rfl
    rename_i hne
    rw [if_neg hne] at h
    cases e with
    | accept n =>
      simp only at h ⊢
      split
      · rfl
      · rename_i hn
        rw [if_neg hn] at h
        exact ih now (buffer.drop n) h
    | refuse => cases h
    | fault f => cases h
    | hang =>
      simp only at h
      split at h
      · cases h
      · cases deadline <;> cases h
    | pause ms due =>
      simp only at h ⊢
      split at h
      · cases h
      rename_i hd
      simp only [hd, if_false]
      split at h
      · rename_i time hw
        exact ih time buffer h
      · cases h

/-- Nothing is too little to wait for when all has to be written. -/
theorem drain_ne_short (deadline : Option Nat) (now : Nat) (buffer : Bytes) (ws : List WriteEvent) :
    (drain deadline 0 now buffer ws).progress ≠ .short := by
  induction ws generalizing now buffer with
  | nil => simp [drain]
  | cons e es ih =>
    unfold drain
    split
    · simp
    cases e with
    | accept n =>
      simp only
      split
      · simp
      · exact ih now (buffer.drop n)
    | refuse => simp
    | fault f => simp
    | hang => cases deadline <;> simp [stuck]
    | pause ms due =>
      simp only [Nat.not_lt_zero, and_false, if_false]
      split
      · exact ih _ buffer
      · simp

end Stream

namespace Connection

/-- Writing goes on: what is to be read, and how, stays as it is. -/
def OnlyWritten (k left : Connection) : Prop :=
  left = { k with
    clock := left.clock
    outbound := left.outbound
    metrics := left.metrics
    stream := { k.stream with
      writes := left.stream.writes
      sent := left.stream.sent
      shutdown := left.stream.shutdown } }

theorem OnlyWritten.refl (k : Connection) : OnlyWritten k k :=
  rfl

theorem OnlyWritten.trans {k m left : Connection} (h : OnlyWritten k m)
    (h' : OnlyWritten m left) : OnlyWritten k left := by
  unfold OnlyWritten at h h' ⊢
  rw [h', h]

/-- Writing goes on, and nothing is counted. -/
def QuietlyWritten (k left : Connection) : Prop :=
  OnlyWritten k left ∧ left.metrics = k.metrics

theorem QuietlyWritten.refl (k : Connection) : QuietlyWritten k k :=
  ⟨rfl, rfl⟩

theorem QuietlyWritten.trans {k m left : Connection} (h : QuietlyWritten k m)
    (h' : QuietlyWritten m left) : QuietlyWritten k left :=
  ⟨h.1.trans h'.1, h'.2.trans h.2⟩

section Moves

variable {α β : Type}

theorem onlyWritten_bind {x : Action Connection α} {f : α → Action Connection β}
    (hx : x.Moves OnlyWritten) (hf : ∀ a, (f a).Moves OnlyWritten) : (x >>= f).Moves OnlyWritten :=
  hx.bind (fun _ _ _ h h' => h.trans h') hf

theorem onlyWritten_of_quietly {x : Action Connection α} (hx : x.Moves QuietlyWritten) :
    x.Moves OnlyWritten :=
  hx.mono fun _ _ h => h.1

theorem quietlyWritten_bind {x : Action Connection α} {f : α → Action Connection β}
    (hx : x.Moves QuietlyWritten) (hf : ∀ a, (f a).Moves QuietlyWritten) :
    (x >>= f).Moves QuietlyWritten :=
  hx.bind (fun _ _ _ h h' => h.trans h') hf

theorem writeOut_quietlyWritten (deadline : Option Nat) (enough : Nat) :
    (writeOut deadline enough).Moves QuietlyWritten := by
  intro k r left h
  unfold Action.Returns writeOut at h
  simp only at h
  split at h
  · cases h
    exact ⟨rfl, rfl⟩
  · cases h
    exact ⟨rfl, rfl⟩
  · cases h
    exact ⟨rfl, rfl⟩
  · cases h
    exact ⟨rfl, rfl⟩
  · cases h

theorem settle_quietlyWritten (deadline : Option Nat) (s : Settle) :
    (settle deadline s).Moves QuietlyWritten := by
  intro k r left h
  unfold Action.Returns settle at h
  cases s with
  | done => cases h; exact .refl k
  | fault f => cases h; exact .refl k
  | hang =>
    cases deadline with
    | none => cases h
    | some d => cases h; exact ⟨rfl, rfl⟩

theorem flush_quietlyWritten (deadline : Option Nat) : (flush deadline).Moves QuietlyWritten := by
  apply quietlyWritten_bind (writeOut_quietlyWritten deadline 0)
  intro _
  exact Action.moves_get_bind fun k => settle_quietlyWritten deadline k.stream.onFlush

theorem await_quietlyWritten (deadline : Nat) : (await deadline).Moves QuietlyWritten := by
  intro k r left h
  unfold Action.Returns await at h
  split at h
  · cases h
    exact .refl k
  · cases h
    exact ⟨rfl, rfl⟩

theorem makeRoom_quietlyWritten (deadline : Nat) : (makeRoom deadline).Moves QuietlyWritten := by
  apply Action.moves_get_bind
  intro k
  split
  · apply quietlyWritten_bind (writeOut_quietlyWritten _ _)
    intro done
    cases done with
    | false => exact await_quietlyWritten deadline
    | true =>
      apply Action.moves_get_bind
      intro m
      split
      · exact await_quietlyWritten deadline
      · exact settle_quietlyWritten _ _
  · exact Action.moves_pure QuietlyWritten.refl _

theorem feed_quietlyWritten (deadline : Nat) (chunk : Bytes) :
    (feed deadline chunk).Moves QuietlyWritten := by
  apply quietlyWritten_bind (makeRoom_quietlyWritten deadline)
  intro _
  exact Action.moves_modify fun _ => ⟨rfl, rfl⟩

theorem feeds_quietlyWritten (deadline : Nat) (chunks : List Bytes) :
    (chunks.forM (feed deadline)).Moves QuietlyWritten := by
  apply Action.moves_forM QuietlyWritten.refl _ (feed_quietlyWritten deadline)
  intro k m left h h'
  exact h.trans h'

theorem send_onlyWritten (message : Bytes) : (send message).Moves OnlyWritten := by
  unfold send
  split
  · exact Action.moves_pure OnlyWritten.refl _
  apply Action.moves_get_bind
  intro k
  apply onlyWritten_bind (onlyWritten_of_quietly (feeds_quietlyWritten _ _))
  intro _
  apply onlyWritten_bind (onlyWritten_of_quietly (flush_quietlyWritten _))
  intro _
  exact Action.moves_modify fun _ => rfl

end Moves

/-- Nothing is left to write, and neither a flush nor the shutdown waits for ever. -/
def ReadyToClose (k : Connection) : Prop :=
  k.outbound = [] ∧ k.stream.onFlush = .done ∧ k.stream.onShutdown ≠ .hang

theorem flush_settled {deadline : Option Nat} {k left : Connection}
    (h : (flush deadline).Returns k (.ok ()) left) :
    left.outbound = [] ∧ left.stream.onFlush = .done := by
  obtain ⟨done, m, hw, hs⟩ := Action.returns_bind_ok.mp h
  have hm : m.outbound = [] := by
    rw [Action.returns_ok] at hw
    unfold writeOut at hw
    simp only at hw
    split at hw
    · rename_i hd
      cases hw
      exact Stream.drain_buffer_of_done _ _ _ hd
    · rename_i hd
      exact absurd hd (Stream.drain_ne_short _ _ _ _)
    · cases hw
    · cases hw
    · cases hw
  rw [Action.returns_get_bind, Action.returns_ok] at hs
  unfold settle at hs
  split at hs
  · rename_i hd
    cases hs
    exact ⟨hm, hd⟩
  · cases hs
  · split at hs
    · cases hs
    · cases hs

theorem send_flushed {message : Bytes} (hne : message ≠ []) {k left : Connection}
    (h : (send message).Returns k (.ok ()) left) :
    left.outbound = [] ∧ left.stream.onFlush = .done := by
  unfold send at h
  rw [if_neg hne, Action.returns_get_bind] at h
  obtain ⟨_, m, -, h⟩ := Action.returns_bind_ok.mp h
  obtain ⟨_, n, hf, h⟩ := Action.returns_bind_ok.mp h
  obtain ⟨-, rfl⟩ := Action.returns_modify.mp h
  have hn : n.outbound = [] ∧ n.stream.onFlush = .done := flush_settled hf
  exact hn

theorem send_readyToClose {message : Bytes} (hne : message ≠ []) {k left : Connection}
    (h : (send message).Returns k (.ok ()) left) (hs : k.stream.onShutdown ≠ .hang) :
    left.ReadyToClose := by
  have hshut : left.stream.onShutdown = k.stream.onShutdown := by
    have hw := send_onlyWritten message k _ left h
    unfold OnlyWritten at hw
    rw [hw]
  obtain ⟨hn, hf⟩ := send_flushed hne h
  rw [← hshut] at hs
  exact ⟨hn, hf, hs⟩

/-- What was sent is not written again. -/
theorem flush_of_flushed {k : Connection} (ho : k.outbound = []) (hf : k.stream.onFlush = .done) :
    (flush none).Returns k (.ok ()) k := by
  have hw : (writeOut none 0).Returns k (.ok true) k := by
    rw [Action.returns_ok]
    unfold writeOut
    rw [ho, Stream.drain_nil]
    simp only [List.append_nil]
    rw [← ho]
  refine (Action.returns_bind_of_ok hw).mpr ?_
  rw [Action.returns_get_bind, hf]
  rfl

/-- When all is sent, closing is the shutdown and no more. -/
theorem close_of_readyToClose {k : Connection} (h : k.ReadyToClose) :
    ∃ r, close.Returns k r { k with stream := { k.stream with shutdown := true } } := by
  obtain ⟨ho, hf, hs⟩ := h
  have hflush := flush_of_flushed ho hf
  cases hd : k.stream.onShutdown with
  | done =>
    refine ⟨.ok (), (Action.returns_bind_of_ok hflush).mpr ?_⟩
    rw [Action.returns_bind_of_ok (Action.returns_modify.mpr ⟨rfl, rfl⟩), Action.returns_get_bind]
    simp only [hd]
    rfl
  | fault f =>
    refine ⟨.error f.writeError, (Action.returns_bind_of_ok hflush).mpr ?_⟩
    rw [Action.returns_bind_of_ok (Action.returns_modify.mpr ⟨rfl, rfl⟩), Action.returns_get_bind]
    simp only [hd]
    rfl
  | hang => exact absurd hd hs

end Connection

end Courier
