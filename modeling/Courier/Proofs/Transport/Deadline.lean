import Courier.Proofs.Hanging
import Courier.Proofs.Transport.Receiving

namespace Courier

theorem Clock.wait_none (now due : Nat) : wait none now due = .reached (max now due) := by
  unfold wait
  split
  · rw [Nat.max_eq_left (by assumption)]
  · rw [Nat.max_eq_right (by omega)]

namespace Stream

theorem le_time_fill (now : Nat) (buffer : Bytes) (es : List ReadEvent) :
    now ≤ (fill none now buffer es).time := by
  induction es generalizing now buffer with
  | nil => exact Nat.le_refl now
  | cons e es ih =>
    cases e with
    | data bytes =>
      unfold fill
      split
      · exact Nat.le_refl now
      · exact ih now (buffer ++ bytes)
    | ended | fault f | hang => exact Nat.le_refl now
    | pause ms due =>
      simp only [fill, Clock.wait_none]
      exact Nat.le_trans (Nat.le_max_left _ _) (ih _ buffer)

/-- Filling a buffer either is over by the limit, and then the limit does not matter, or it ends at
the limit. -/
theorem fill_within {limit now : Nat} (h : now ≤ limit) (buffer : Bytes) (es : List ReadEvent) :
    (fill (some limit) now buffer es = fill none now buffer es ∧
      (fill none now buffer es).progress ≠ .hung ∧ (fill none now buffer es).time ≤ limit) ∨
    ((fill (some limit) now buffer es).progress = .expired ∧
      (fill (some limit) now buffer es).time = limit ∧
      ((fill none now buffer es).progress = .hung ∨ limit < (fill none now buffer es).time)) := by
  induction es generalizing now buffer with
  | nil => exact .inl ⟨rfl, by simp [fill], h⟩
  | cons e es ih =>
    cases e with
    | data bytes =>
      unfold fill
      split
      · exact .inl ⟨rfl, by simp, h⟩
      · exact ih h (buffer ++ bytes)
    | ended | fault f => exact .inl ⟨rfl, by simp [fill], h⟩
    | hang => exact .inr ⟨rfl, rfl, .inl rfl⟩
    | pause ms due =>
      by_cases hdue : due.getD (now + ms) ≤ limit
      · simp only [fill, Clock.wait_none, Clock.wait_of_le hdue]
        exact ih (Nat.max_le.mpr ⟨h, hdue⟩) buffer
      · have hlate : limit < due.getD (now + ms) := Nat.lt_of_not_le hdue
        have htime := le_time_fill (max now (due.getD (now + ms))) buffer es
        simp only [fill, Clock.wait_none, Clock.wait_of_lt hlate h]
        exact .inr ⟨trivial, trivial, .inr (by omega)⟩

theorem drain_time_le {limit now : Nat} (h : now ≤ limit) (enough : Nat) (buffer : Bytes)
    (ws : List WriteEvent) : (drain (some limit) enough now buffer ws).time ≤ limit := by
  induction ws generalizing now buffer with
  | nil => exact h
  | cons e es ih =>
    unfold drain
    split
    · exact h
    cases e with
    | accept n =>
      simp only
      split
      · exact h
      · exact ih h (buffer.drop n)
    | refuse | fault f => exact h
    | hang =>
      simp only
      split
      · exact h
      · exact Nat.le_refl limit
    | pause ms due =>
      simp only
      split
      · exact h
      by_cases hdue : due.getD (now + ms) ≤ limit
      · simp only [Clock.wait_of_le hdue]
        exact ih (Nat.max_le.mpr ⟨h, hdue⟩) buffer
      · simp only [Clock.wait_of_lt (Nat.lt_of_not_le hdue) h]
        exact Nat.le_refl limit

theorem nextDue_le_limit (s : Stream) (now limit : Nat) : s.nextDue now limit ≤ limit := by
  have hfold (dues : List Nat) (next : Nat) :
      dues.foldl (fun next due => if now < due then min next due else next) next ≤ next := by
    induction dues generalizing next with
    | nil => exact Nat.le_refl next
    | cons due dues ih =>
      have hstep : (if now < due then min next due else next) ≤ next := by
        split
        · exact Nat.min_le_left next due
        · exact Nat.le_refl next
      exact Nat.le_trans (ih _) hstep
  exact hfold _ limit

end Stream

namespace Connection

open Courier.Action

variable {α β : Type} {limit : Nat}

/-- Time does not run backwards. -/
def Forward (k left : Connection) : Prop :=
  k.clock ≤ left.clock

theorem Forward.trans {k m left : Connection} (h : Forward k m) (h' : Forward m left) :
    Forward k left :=
  Nat.le_trans h h'

theorem forward_bind {x : Action Connection α} {f : α → Action Connection β}
    (hx : x.Moves Forward) (hf : ∀ a, (f a).Moves Forward) : (x >>= f).Moves Forward :=
  hx.bind (fun _ _ _ h h' => h.trans h') hf

/-- The step `x` is the step `y` under a deadline at `limit`: it does the same when that is over by
then, and otherwise fails just then. -/
def Hurries (limit : Nat) (x y : Action Connection α) : Prop :=
  ∀ k, k.clock ≤ limit →
    (∃ r m, y.Returns k r m ∧ x.Returns k r m ∧ m.clock ≤ limit) ∨
    ((∃ m, x.Returns k (.error .timeout) m ∧ m.clock = limit) ∧
      ∀ r m, y.Returns k r m → limit < m.clock)

/-- The step is over at once. -/
structure Instant (x : Action Connection α) : Prop where
  ends : x.Ends
  moves : x.Moves fun k left => left.clock = k.clock

theorem instant_ofExcept (y : Except TransferError α) :
    Instant (ofExcept y : Action Connection α) := by
  refine ⟨ends_ofExcept y, ?_⟩
  intro k r m h
  rw [(returns_ofExcept.mp h).2]

theorem instant_pure (a : α) : Instant (pure a : Action Connection α) :=
  instant_ofExcept (.ok a)

theorem instant_modify {f : Connection → Connection} (h : ∀ k, (f k).clock = k.clock) :
    Instant (modify f : Action Connection PUnit) :=
  ⟨ends_modify f, moves_modify h⟩

theorem Instant.bind {x : Action Connection α} {f : α → Action Connection β} (hx : Instant x)
    (hf : ∀ a, Instant (f a)) : Instant (x >>= f) :=
  ⟨hx.ends.bind fun a => (hf a).ends,
    hx.moves.bind (fun _ _ _ h h' => h'.trans h) fun a => (hf a).moves⟩

theorem Instant.forward {x : Action Connection α} (hx : Instant x) : x.Moves Forward :=
  hx.moves.mono fun _ _ h => Nat.le_of_eq h.symm

/-- What is over at once is not hurried. -/
theorem Instant.hurries {x : Action Connection α} (hx : Instant x) : Hurries limit x x := by
  intro k hk
  rcases returns_or_hangs x k with ⟨r, m, h⟩ | ⟨m, h⟩
  · have hm : m.clock = k.clock := hx.moves k r m h
    exact .inl ⟨r, m, h, h, by omega⟩
  · exact absurd h (hx.ends k m)

theorem Hurries.bind {x y : Action Connection α} {f g : α → Action Connection β}
    (hx : Hurries limit x y) (hf : ∀ a, Hurries limit (f a) (g a))
    (hg : ∀ a, (g a).Moves Forward) : Hurries limit (x >>= f) (y >>= g) := by
  intro k hk
  rcases hx k hk with ⟨r, m, hy, hx', hm⟩ | ⟨⟨m, hx', hm⟩, hlate⟩
  · cases r with
    | error e => exact .inl ⟨.error e, m, returns_bind_of_error hy, returns_bind_of_error hx', hm⟩
    | ok a =>
      rcases hf a m hm with ⟨r, n, hg', hf', hn⟩ | ⟨⟨n, hf', hn⟩, hlate⟩
      · exact .inl ⟨r, n, (returns_bind_of_ok hy).mpr hg', (returns_bind_of_ok hx').mpr hf', hn⟩
      · refine .inr ⟨⟨n, (returns_bind_of_ok hx').mpr hf', hn⟩, ?_⟩
        intro r l h
        exact hlate r l ((returns_bind_of_ok hy).mp h)
  · refine .inr ⟨⟨m, returns_bind_of_error hx', hm⟩, ?_⟩
    intro r l h
    rcases returns_bind.mp h with ⟨a, n, hy, hga⟩ | ⟨e, -, hy⟩
    · have hn := hlate _ n hy
      have hl : n.clock ≤ l.clock := hg a n r l hga
      omega
    · exact hlate _ l hy

/-- The connection once a buffer was filled from its stream. -/
def afterRead (k : Connection) (r : Stream.Filled) : Connection :=
  { k with
    clock := r.time
    inbound := r.buffer
    stream := { k.stream with reads := r.reads } }

@[simp] theorem clock_afterRead (k : Connection) (r : Stream.Filled) :
    (k.afterRead r).clock = r.time :=
  rfl

/-- What the next frame is when a read was needed for it. -/
def frameRead (r : Stream.Filled) : Action Connection Bytes :=
  fun k =>
    match r.progress with
    | .done =>
      .ok (r.buffer.take Frame.size) { k.afterRead r with inbound := r.buffer.drop Frame.size }
    | .short =>
      if r.buffer = [] then .error (.failed .connectionClosed) (k.afterRead r)
      else .ok r.buffer { k.afterRead r with inbound := [], interrupted := true }
    | .fault f => .error (.failed f.readError) { k.afterRead r with interrupted := true }
    | .expired => .error (.failed .timeout) (k.afterRead r)
    | .hung => .error .hung (k.afterRead r)

theorem nextFrame_of_read {k : Connection} (hopen : k.interrupted = false)
    (hshort : k.inbound.length < Frame.size) (deadline : Option Nat) :
    nextFrame deadline k = frameRead (Stream.fill deadline k.clock k.inbound k.stream.reads) k := by
  have hi : ¬k.interrupted = true := by simp [hopen]
  unfold nextFrame
  rw [if_neg hi, if_neg (Nat.not_le_of_lt hshort)]
  rfl

section FrameRead

variable {r : Stream.Filled} {k : Connection}

/-- A read that is over leaves the time at which it was. -/
theorem frameRead_returns {y : Except TransferError Bytes} {m : Connection}
    (h : (frameRead r).Returns k y m) : m.clock = r.time ∧ r.progress ≠ .hung := by
  unfold Returns frameRead at h
  simp only at h
  split at h <;> rename_i hp
  · cases h
    simp [hp]
  · split at h <;> cases h <;> simp [hp]
  · cases h
    simp [hp]
  · cases h
    simp [hp]
  · cases h

theorem frameRead_ends (h : r.progress ≠ .hung) (m : Connection) : ¬(frameRead r).Hangs k m := by
  intro hangs
  unfold Hangs frameRead at hangs
  simp only at hangs
  split at hangs
  · cases hangs
  · split at hangs <;> cases hangs
  · cases hangs
  · cases hangs
  · contradiction

theorem frameRead_of_expired (h : r.progress = .expired) :
    ∃ m, (frameRead r).Returns k (.error .timeout) m ∧ m.clock = r.time := by
  refine ⟨k.afterRead r, ?_, clock_afterRead k r⟩
  rw [returns_error]
  unfold frameRead
  simp only [h]

end FrameRead

/-- A frame that needs no read is there at once. -/
theorem nextFrame_instant {k : Connection}
    (h : ¬(k.interrupted = false ∧ k.inbound.length < Frame.size)) :
    ∃ r m, m.clock = k.clock ∧ ∀ deadline, (nextFrame deadline).Returns k r m := by
  by_cases hi : k.interrupted
  · refine ⟨.error .connectionClosed, { k with interrupted := false }, rfl, fun deadline => ?_⟩
    rw [returns_error]
    simp only [nextFrame, hi, if_true]
  · have hin : Frame.size ≤ k.inbound.length := by simp_all
    refine ⟨.ok (k.inbound.take Frame.size), { k with inbound := k.inbound.drop Frame.size }, rfl,
      fun deadline => ?_⟩
    rw [returns_ok]
    simp only [nextFrame, hi, hin, if_true, if_false, Bool.false_eq_true]

theorem nextFrame_hurries (limit : Nat) :
    Hurries limit (nextFrame (some limit)) (nextFrame none) := by
  intro k hk
  by_cases hread : k.interrupted = false ∧ k.inbound.length < Frame.size
  · obtain ⟨hopen, hshort⟩ := hread
    have hnext := nextFrame_of_read hopen hshort
    unfold Returns
    simp only [hnext]
    rcases Stream.fill_within hk k.inbound k.stream.reads with ⟨hsame, hp, ht⟩ | ⟨hp, ht, hlate⟩
    · rw [hsame]
      rcases returns_or_hangs (frameRead (Stream.fill none k.clock k.inbound k.stream.reads)) k
        with ⟨r, m, h⟩ | ⟨m, h⟩
      · have hm := (frameRead_returns h).1
        exact .inl ⟨r, m, h, h, by omega⟩
      · exact absurd h (frameRead_ends hp m)
    · obtain ⟨m, hm, hclock⟩ := frameRead_of_expired (k := k) hp
      refine .inr ⟨⟨m, hm, hclock.trans ht⟩, ?_⟩
      intro r n h
      obtain ⟨hn, hover⟩ := frameRead_returns h
      rcases hlate with hhung | hlater
      · exact absurd hhung hover
      · omega
  · obtain ⟨r, m, hm, h⟩ := nextFrame_instant hread
    exact .inl ⟨r, m, h none, h (some limit), by omega⟩

theorem nextFrame_forward : (nextFrame none).Moves Forward := by
  intro k r m h
  by_cases hread : k.interrupted = false ∧ k.inbound.length < Frame.size
  · unfold Returns at h
    rw [nextFrame_of_read hread.1 hread.2] at h
    have hm := (frameRead_returns h).1
    have htime := Stream.le_time_fill k.clock k.inbound k.stream.reads
    unfold Forward
    omega
  · obtain ⟨y, n, hn, hinstant⟩ := nextFrame_instant hread
    obtain ⟨-, rfl⟩ := returns_unique h (hinstant none)
    exact Nat.le_of_eq hn.symm

theorem collect_forward (wanted most : Nat) (data : Bytes) (frames : Nat) :
    (collect none wanted most data frames).Moves Forward := by
  induction most generalizing data frames with
  | zero => exact (instant_pure _).forward
  | succ most ih =>
    unfold collect
    split
    · exact (instant_pure _).forward
    · exact forward_bind nextFrame_forward fun frame => ih _ _

theorem collect_hurries (wanted most : Nat) (data : Bytes) (frames : Nat) :
    Hurries limit (collect (some limit) wanted most data frames)
      (collect none wanted most data frames) := by
  induction most generalizing data frames with
  | zero => exact (instant_pure _).hurries
  | succ most ih =>
    unfold collect
    split
    · exact (instant_pure _).hurries
    · exact (nextFrame_hurries limit).bind (fun frame => ih _ _) fun frame =>
        collect_forward _ _ _ _

/-- Noting a message that is all there takes no time. -/
theorem instant_received (frames total : Nat) (message : Bytes) :
    Instant (do
      modify fun c => { c with metrics := c.metrics.map (·.messageReceived frames total) }
      return message) := by
  refine Instant.bind (instant_modify ?_) fun _ => instant_pure message
  intro k
  rfl

theorem receiveRest_forward (data : Bytes) (frames : Nat) (length : Except TransferError Nat) :
    (receiveRest none data frames length).Moves Forward := by
  refine forward_bind (instant_ofExcept _).forward fun total => ?_
  exact forward_bind (collect_forward _ _ _ _) fun collected => (instant_received _ _ _).forward

theorem receiveRest_hurries (data : Bytes) (frames : Nat) (length : Except TransferError Nat) :
    Hurries limit (receiveRest (some limit) data frames length)
      (receiveRest none data frames length) := by
  refine (instant_ofExcept length).hurries.bind (fun total => ?_) fun total => ?_
  · exact (collect_hurries _ _ _ _).bind (fun collected => (instant_received _ _ _).hurries)
      fun collected => (instant_received _ _ _).forward
  · exact forward_bind (collect_forward _ _ _ _) fun collected => (instant_received _ _ _).forward

/-- Receives a message whose head announces its length, up to a deadline or without one. -/
def receiveBy (deadline : Option Nat) (head : Nat)
    (announced : Bytes → List Event × Except TransferError Nat) : Action Connection Bytes := do
  let (data, frames) ← collect deadline head head [] 0
  modify fun c => { c with log := c.log ++ (announced (data.take head)).1 }
  receiveRest deadline data frames (announced (data.take head)).2

theorem receiveAnnounced_eq (head : Nat)
    (announced : Bytes → List Event × Except TransferError Nat) (k : Connection) :
    receiveAnnounced head announced k =
      receiveBy (some (k.clock + k.timeouts.receive)) head announced k :=
  rfl

/-- The deadline is one for the whole message, however many frames it takes. -/
theorem receiveBy_hurries (head : Nat)
    (announced : Bytes → List Event × Except TransferError Nat) :
    Hurries limit (receiveBy (some limit) head announced) (receiveBy none head announced) := by
  have hjudge (events : List Event) :
      Instant (modify fun c => { c with log := c.log ++ events } : Action Connection PUnit) :=
    instant_modify fun _ => rfl
  refine (collect_hurries _ _ _ _).bind (fun collected => ?_) fun collected => ?_
  · exact (hjudge _).hurries.bind (fun _ => receiveRest_hurries _ _ _)
      fun _ => receiveRest_forward _ _ _
  · exact forward_bind (hjudge _).forward fun _ => receiveRest_forward _ _ _

section Sending

/-- What is begun by the limit is over by the limit. -/
def Prompt (limit : Nat) (k left : Connection) : Prop :=
  k.clock ≤ limit → left.clock ≤ limit

theorem Prompt.refl (k : Connection) : Prompt limit k k :=
  id

theorem Prompt.trans {k m left : Connection} (h : Prompt limit k m) (h' : Prompt limit m left) :
    Prompt limit k left :=
  fun hk => h' (h hk)

theorem prompt_bind {x : Action Connection α} {f : α → Action Connection β}
    (hx : x.Moves (Prompt limit)) (hf : ∀ a, (f a).Moves (Prompt limit)) :
    (x >>= f).Moves (Prompt limit) :=
  hx.bind (fun _ _ _ h h' => h.trans h') hf

theorem writeOut_prompt (enough : Nat) : (writeOut (some limit) enough).Moves (Prompt limit) := by
  intro k r left h hk
  have htime := Stream.drain_time_le hk enough k.outbound k.stream.writes
  unfold Returns writeOut at h
  simp only at h
  split at h <;> cases h <;> exact htime

theorem settle_prompt (s : Settle) : (settle (some limit) s).Moves (Prompt limit) := by
  intro k r left h hk
  cases s with
  | done | fault f =>
    cases h
    exact hk
  | hang =>
    cases h
    exact Nat.le_refl limit

theorem flush_prompt : (flush (some limit)).Moves (Prompt limit) :=
  prompt_bind (writeOut_prompt 0) fun _ => moves_get_bind fun _ => settle_prompt _

theorem await_prompt : (await limit).Moves (Prompt limit) := by
  intro k r left h hk
  unfold Returns await at h
  split at h
  · cases h
    exact hk
  · cases h
    exact Stream.nextDue_le_limit _ _ _

theorem makeRoom_prompt : (makeRoom limit).Moves (Prompt limit) := by
  refine moves_get_bind fun k => ?_
  split
  · refine prompt_bind (writeOut_prompt _) fun done => ?_
    cases done with
    | false => exact await_prompt
    | true =>
      refine moves_get_bind fun m => ?_
      split
      · exact await_prompt
      · exact settle_prompt _
  · exact moves_pure .refl _

theorem feed_prompt (chunk : Bytes) : (feed limit chunk).Moves (Prompt limit) :=
  prompt_bind makeRoom_prompt fun _ => moves_modify fun _ => id

/-- The deadline for sending is one for the whole message, too. -/
theorem clock_le_of_send {message : Bytes} {k left : Connection} {r : Except TransferError Unit}
    (h : (send message).Returns k r left) : left.clock ≤ k.clock + k.timeouts.send := by
  unfold send at h
  split at h
  · obtain ⟨-, rfl⟩ := returns_pure.mp h
    exact Nat.le_add_right _ _
  · refine prompt_bind (moves_forM .refl (fun _ _ _ h h' => h.trans h') feed_prompt _) (fun _ => ?_)
      k r left (returns_get_bind.mp h) (Nat.le_add_right _ _)
    exact prompt_bind flush_prompt fun _ => moves_modify fun _ => id

end Sending

end Connection

end Courier
