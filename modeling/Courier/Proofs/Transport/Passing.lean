import Courier.Proofs.Transport.Delivery
import Courier.Proofs.Transport.Metering

namespace Courier

namespace Frame

/-- A message as it goes over a stream, with zeros up to the end of its last frame. -/
def wire (message : Bytes) : Bytes :=
  message ++ List.replicate (count message.length * size - message.length) 0

theorem length_wire (message : Bytes) : (wire message).length = count message.length * size := by
  have hle : message.length ≤ count message.length * size := by
    simp only [count, size]
    omega
  rw [wire, List.length_append, List.length_replicate]
  omega

theorem length_cut (n : Nat) (bs : Bytes) : (cut n bs).length = n := by
  induction n generalizing bs with
  | zero => rfl
  | succ n ih => simp [cut, ih]

theorem length_le_of_mem_cut {n : Nat} {bs chunk : Bytes} (h : chunk ∈ cut n bs) :
    chunk.length ≤ size := by
  induction n generalizing bs with
  | zero => simp [cut] at h
  | succ n ih =>
    rcases List.mem_cons.mp h with rfl | h
    · exact List.length_take_le _ _
    · exact ih h

/-- Only the last chunk is filled up. -/
theorem flatMap_pad_cut {n : Nat} {bs : Bytes} (hle : bs.length ≤ n * size)
    (hlt : n * size < bs.length + size) :
    (cut n bs).flatMap pad = bs ++ List.replicate (n * size - bs.length) 0 := by
  induction n generalizing bs with
  | zero =>
    have hnil : bs = [] := List.eq_nil_of_length_eq_zero (by omega)
    subst hnil
    rfl
  | succ n ih =>
    rw [cut, List.flatMap_cons]
    by_cases hfull : size ≤ bs.length
    · have htake : (bs.take size).length = size := by
        rw [List.length_take]
        omega
      have hdrop : (bs.drop size).length = bs.length - size := List.length_drop
      have hmul : (n + 1) * size = n * size + size := by rw [Nat.add_mul, Nat.one_mul]
      have hzeros : n * size - (bs.length - size) = (n + 1) * size - bs.length := by omega
      have hpad : pad (bs.take size) = bs.take size := by
        simp [pad, Bytes.padTo, htake]
      have hrest : (cut n (bs.drop size)).flatMap pad =
          bs.drop size ++ List.replicate ((n + 1) * size - bs.length) 0 := by
        rw [ih (by omega) (by omega), hdrop, hzeros]
      rw [hpad, hrest, ← List.append_assoc, List.take_append_drop]
    · have hzero : n = 0 := by
        simp only [size] at hfull hlt
        omega
      subst hzero
      rw [List.take_of_length_le (by omega), Nat.zero_add, Nat.one_mul]
      simp [cut, pad, Bytes.padTo]

theorem flatMap_pad_chunks (message : Bytes) : (chunks message).flatMap pad = wire message := by
  apply flatMap_pad_cut
  · simp only [count, size]
    omega
  · simp only [count, size]
    omega

end Frame

namespace Stream

/-- From `now` on, the stream lets the next `n` bytes pass. Then it is `time`, and `left` is still to
happen on it. Every wait on the way is over by `limit`. -/
inductive Passes (limit : Nat) : Nat → List WriteEvent → Nat → Nat → List WriteEvent → Prop where
  | none {now : Nat} {ws : List WriteEvent} : Passes limit now ws 0 now ws
  | free {now n : Nat} : Passes limit now [] n now []
  | part {now n m : Nat} {ws : List WriteEvent} :
    0 < n → n < m → Passes limit now (.accept m :: ws) n now (.accept (m - n) :: ws)
  | piece {now n m time : Nat} {ws left : List WriteEvent} :
    0 < n → m ≤ n → Passes limit now ws (n - m) time left →
      Passes limit now (.accept m :: ws) n time left
  | pause {now n ms time : Nat} {due : Option Nat} {ws left : List WriteEvent} :
    0 < n → due.getD (now + ms) ≤ limit →
      Passes limit (max now (due.getD (now + ms))) ws n time left →
        Passes limit now (.pause ms due :: ws) n time left

theorem Passes.eq_of_zero {limit now time : Nat} {ws left : List WriteEvent}
    (h : Passes limit now ws 0 time left) : time = now ∧ left = ws := by
  generalize hn : 0 = n at h
  cases h with
  | none | free => exact ⟨rfl, rfl⟩
  | part hpos | piece hpos | pause hpos => omega

/-- What is left of a piece that was not used up passes later. -/
theorem Passes.of_part {limit now time m n b : Nat} {ws left : List WriteEvent} (hb : b < m)
    (hbn : b ≤ n) (hpos : 0 < b) (h : Passes limit now (.accept m :: ws) n time left) :
    Passes limit now (.accept (m - b) :: ws) (n - b) time left := by
  cases h with
  | none => omega
  | part hn hm =>
    by_cases hz : n - b = 0
    · have he : n = b := by omega
      rw [hz, he]
      exact .none
    · have hlt : n - b < m - b := by omega
      have he : m - n = m - b - (n - b) := by omega
      rw [he]
      exact .part (Nat.pos_of_ne_zero hz) hlt
  | piece hn hm hrest =>
    refine .piece (by omega) (by omega) ?_
    have he : n - b - (m - b) = n - m := by omega
    rw [he]
    exact hrest

/-- A stream that is waited for lets the bytes pass as well if the wait is broken off. -/
theorem Passes.of_waiting {limit now time n t ms due : Nat} {ws left : List WriteEvent} (hpos : 0 < n)
    (hdue : due ≤ limit) (ht : t ≤ due) (hnow : now ≤ due)
    (h : Passes limit (max now due) ws n time left) :
    Passes limit t (.pause ms (some due) :: ws) n time left := by
  have he : max t due = max now due := by omega
  rw [← he] at h
  exact .pause hpos hdue h

/-- What a drain leaves of a buffer, and of a stream that lets `n` bytes pass: nothing is lost, and
the rest of the `n` bytes still passes. The drain leaves off only with fewer than `enough` bytes, and
then waiting for the stream is no loss. -/
structure Drained.Leaves (d : Drained) (limit enough : Nat) (buffer : Bytes) (n time : Nat)
    (left : List WriteEvent) : Prop where
  kept : d.sent ++ d.buffer = buffer
  passes : Passes limit d.time d.writes (n - d.sent.length) time left
  ended : d.progress = .done ∧ d.buffer = [] ∨
    d.progress = .short ∧ d.buffer.length < enough ∧
      ∃ due, d.writes.head?.bind (·.due?) = some due ∧ d.time < due ∧ due ≤ limit ∧
        ∀ t, t ≤ due → Passes limit t d.writes (n - d.sent.length) time left

theorem leaves_of_drained {limit enough now n time : Nat} {buffer : Bytes}
    {ws left : List WriteEvent} (h : Passes limit now ws (n - buffer.length) time left) :
    Drained.Leaves ⟨.done, now, buffer, [], ws⟩ limit enough buffer n time left :=
  ⟨List.append_nil _, h, .inl ⟨rfl, rfl⟩⟩

theorem drain_of_passes {limit now n time : Nat} {ws left : List WriteEvent}
    (h : Passes limit now ws n time left) (enough : Nat) {buffer : Bytes} (hb : buffer.length ≤ n) :
    (drain (some limit) enough now buffer ws).Leaves limit enough buffer n time left := by
  induction h generalizing buffer with
  | none =>
    have hnil : buffer = [] := List.eq_nil_of_length_eq_zero (by omega)
    subst hnil
    rw [drain_nil]
    exact leaves_of_drained .none
  | free => exact leaves_of_drained .free
  | @part now n m ws hn hm =>
    unfold drain
    split
    · rename_i hnil
      subst hnil
      exact leaves_of_drained (.part hn hm)
    · rename_i hne
      have hpos : 0 < buffer.length := List.length_pos_iff.mpr hne
      have hlt : buffer.length < m := by omega
      simp only [hlt, if_true]
      exact leaves_of_drained (Passes.of_part hlt hb hpos (.part hn hm))
  | @piece now n m time ws left hn hm hrest ih =>
    unfold drain
    split
    · rename_i hnil
      subst hnil
      exact leaves_of_drained (.piece hn hm hrest)
    · rename_i hne
      have hpos : 0 < buffer.length := List.length_pos_iff.mpr hne
      by_cases hlt : buffer.length < m
      · simp only [hlt, if_true]
        exact leaves_of_drained (Passes.of_part hlt hb hpos (.piece hn hm hrest))
      · simp only [hlt, if_false]
        have hdrop : (buffer.drop m).length ≤ n - m := by
          rw [List.length_drop]
          omega
        obtain ⟨hkept, hpasses, hended⟩ := ih hdrop
        have hsent (sent : Bytes) : n - (buffer.take m ++ sent).length = n - m - sent.length := by
          rw [List.length_append, List.length_take]
          omega
        refine ⟨?_, ?_, ?_⟩
        · simp only [List.append_assoc, hkept, List.take_append_drop]
        · simp only [hsent]
          exact hpasses
        · simp only [hsent]
          exact hended
  | @pause now n ms time due ws left hn hdue hrest ih =>
    unfold drain
    split
    · rename_i hnil
      subst hnil
      exact leaves_of_drained (.pause hn hdue hrest)
    · simp only
      split
      · rename_i hne hshort
        obtain ⟨hlater, hlt⟩ := hshort
        have hwaiting (t : Nat) (ht : t ≤ due.getD (now + ms)) :
            Passes limit t (.pause ms (some (due.getD (now + ms))) :: ws) n time left :=
          .of_waiting hn hdue ht (Nat.le_of_lt hlater) hrest
        exact ⟨rfl, hwaiting now (Nat.le_of_lt hlater),
          .inr ⟨rfl, hlt, _, rfl, hlater, hdue, hwaiting⟩⟩
      · simp only [Clock.wait_of_le hdue]
        exact ih hb

/-- A wait ends at the latest when the pause is over that keeps the writer waiting. -/
theorem nextDue_le {s : Stream} {now limit due : Nat}
    (h : s.writes.head?.bind (·.due?) = some due) (hd : now < due) : s.nextDue now limit ≤ due := by
  unfold nextDue
  rw [h]
  cases s.reads.head?.bind (·.due?) with
  | none =>
    simp only [List.filterMap_cons, List.filterMap_nil, id_eq, List.foldl_cons, List.foldl_nil, hd,
      if_true]
    exact Nat.min_le_right _ _
  | some other =>
    simp only [List.filterMap_cons, List.filterMap_nil, id_eq, List.foldl_cons, List.foldl_nil, hd,
      if_true]
    exact Nat.min_le_right _ _

end Stream

namespace Connection

variable {k : Connection} {limit pending time : Nat} {left : List WriteEvent}

/-- The stream lets what is buffered and `pending` bytes more pass in time. -/
structure Carries (limit pending time : Nat) (left : List WriteEvent) (k : Connection) : Prop where
  passes : Stream.Passes limit k.clock k.stream.writes (k.outbound.length + pending) time left
  settles : k.stream.onFlush = .done

/-- What the peer has been given, and what it is still to be given. -/
def posted (k : Connection) : Bytes :=
  k.stream.sent ++ k.outbound

/-- All is written out, or a wait is on that may be broken off. -/
theorem writeOut_carries (h : k.Carries limit pending time left) (enough : Nat) :
    ∃ done m, (writeOut (some limit) enough).Returns k (.ok done) m ∧
      m.Carries limit pending time left ∧ m.posted = k.posted ∧
      (done = true ∧ m.outbound = [] ∨ done = false ∧ m.outbound.length < enough ∧
        m.clock < limit ∧
        Carries limit pending time left { m with clock := m.stream.nextDue m.clock limit }) := by
  have hleaves := Stream.drain_of_passes h.passes enough (Nat.le_add_right _ pending)
  generalize hd : Stream.drain (some limit) enough k.clock k.outbound k.stream.writes = d at hleaves
  obtain ⟨hkept, hpasses, hended⟩ := hleaves
  have hlength : k.outbound.length + pending - d.sent.length = d.buffer.length + pending := by
    rw [← hkept, List.length_append]
    omega
  rw [hlength] at hpasses hended
  let m : Connection := { k with
    clock := d.time
    outbound := d.buffer
    stream := { k.stream with writes := d.writes, sent := k.stream.sent ++ d.sent } }
  have hcarries : m.Carries limit pending time left := ⟨hpasses, h.settles⟩
  have hposted : m.posted = k.posted := by
    unfold posted
    rw [← hkept, List.append_assoc]
  rcases hended with ⟨hdone, hempty⟩ | ⟨hshort, hfew, due, hdue, hlater, hlimit, hwaiting⟩
  · refine ⟨true, m, ?_, hcarries, hposted, .inl ⟨rfl, hempty⟩⟩
    rw [Action.returns_ok]
    simp only [writeOut, hd, hdone]
    rfl
  · refine ⟨false, m, ?_, hcarries, hposted, .inr ⟨rfl, hfew, ?_, ?_⟩⟩
    · rw [Action.returns_ok]
      simp only [writeOut, hd, hshort]
      rfl
    · exact Nat.lt_of_lt_of_le hlater hlimit
    · exact ⟨hwaiting _ (Stream.nextDue_le hdue hlater), h.settles⟩

theorem makeRoom_carries (h : k.Carries limit pending time left) :
    ∃ m, (makeRoom limit).Returns k (.ok ()) m ∧ m.Carries limit pending time left ∧
      m.posted = k.posted := by
  unfold makeRoom
  by_cases hl : k.outbound.length ≥ highWater
  · obtain ⟨done, m, hm, hcarries, hposted, hended⟩ := writeOut_carries h highWater
    rcases hended with ⟨rfl, -⟩ | ⟨rfl, -, hlimit, hwaiting⟩
    · refine ⟨m, ?_, hcarries, hposted⟩
      rw [Action.returns_get_bind, if_pos hl, Action.returns_bind_of_ok hm]
      simp only [if_true]
      rw [Action.returns_get_bind, hcarries.settles]
      rfl
    · refine ⟨{ m with clock := m.stream.nextDue m.clock limit }, ?_, hwaiting, hposted⟩
      rw [Action.returns_get_bind, if_pos hl, Action.returns_bind_of_ok hm]
      simp only [Bool.false_eq_true, if_false]
      rw [Action.returns_ok]
      unfold await
      rw [if_neg (Nat.not_le_of_lt hlimit)]
  · refine ⟨k, ?_, h, rfl⟩
    rw [Action.returns_get_bind, if_neg hl]
    rfl

/-- A frame more is posted, and that many bytes less are pending. -/
theorem feed_carries (h : k.Carries limit (Frame.size + pending) time left) {chunk : Bytes}
    (hc : chunk.length ≤ Frame.size) :
    ∃ m, (feed limit chunk).Returns k (.ok ()) m ∧ m.Carries limit pending time left ∧
      m.posted = k.posted ++ Frame.pad chunk := by
  obtain ⟨m, hm, hcarries, hposted⟩ := makeRoom_carries h
  refine ⟨{ m with outbound := m.outbound ++ Frame.pad chunk }, ?_, ⟨?_, hcarries.settles⟩, ?_⟩
  · exact (Action.returns_bind_of_ok hm).mpr (Action.returns_modify.mpr ⟨rfl, rfl⟩)
  · have hlength : (m.outbound ++ Frame.pad chunk).length + pending =
        m.outbound.length + (Frame.size + pending) := by
      rw [List.length_append, Frame.length_pad hc, Nat.add_assoc]
    rw [hlength]
    exact hcarries.passes
  · rw [← hposted]
    exact (List.append_assoc _ _ _).symm

theorem feeds_carries {chunks : List Bytes} (hc : ∀ chunk ∈ chunks, chunk.length ≤ Frame.size)
    (h : k.Carries limit (chunks.length * Frame.size) time left) :
    ∃ m, (chunks.forM (feed limit)).Returns k (.ok ()) m ∧ m.Carries limit 0 time left ∧
      m.posted = k.posted ++ chunks.flatMap Frame.pad := by
  induction chunks generalizing k with
  | nil =>
    rw [List.length_nil, Nat.zero_mul] at h
    exact ⟨k, rfl, h, (List.append_nil _).symm⟩
  | cons chunk chunks ih =>
    rw [List.length_cons, Nat.add_mul, Nat.one_mul, Nat.add_comm] at h
    obtain ⟨m, hm, hcarries, hposted⟩ := feed_carries h (hc chunk (List.mem_cons_self ..))
    obtain ⟨n, hn, hcarries', hposted'⟩ :=
      ih (fun c hmem => hc c (List.mem_cons_of_mem _ hmem)) hcarries
    refine ⟨n, (Action.returns_bind_of_ok hm).mpr hn, hcarries', ?_⟩
    rw [hposted', hposted, List.flatMap_cons, List.append_assoc]

/-- When nothing is pending, flushing comes to the end of the message. -/
theorem flush_carries (h : k.Carries limit 0 time left) :
    ∃ m, (flush (some limit)).Returns k (.ok ()) m ∧ m.outbound = [] ∧ m.clock = time ∧
      m.stream.writes = left ∧ m.stream.sent = k.posted := by
  obtain ⟨done, m, hm, hcarries, hposted, hended⟩ := writeOut_carries h 0
  rcases hended with ⟨-, hempty⟩ | ⟨-, hfew, -⟩
  · have hpasses := hcarries.passes
    rw [hempty] at hpasses
    obtain ⟨rfl, rfl⟩ := hpasses.eq_of_zero
    refine ⟨m, ?_, hempty, rfl, rfl, ?_⟩
    · refine (Action.returns_bind_of_ok hm).mpr ?_
      rw [Action.returns_get_bind, hcarries.settles]
      rfl
    · rw [← hposted, posted, hempty, List.append_nil]
  · omega

/-- A message is sent whole, after what was still to be written, if all of that passes within the time
for the message. -/
theorem send_after_of_passes {message : Bytes} (hne : message ≠ [])
    (hf : k.stream.onFlush = .done)
    (hp : Stream.Passes (k.clock + k.timeouts.send) k.clock k.stream.writes
      (k.outbound.length + (Frame.wire message).length) time left) :
    ∃ m, (send message).Returns k (.ok ()) m ∧ m.outbound = [] ∧ m.clock = time ∧
      m.stream.writes = left ∧ m.stream.sent = k.posted ++ Frame.wire message := by
  have hchunks : k.Carries (k.clock + k.timeouts.send)
      ((Frame.chunks message).length * Frame.size) time left := by
    refine ⟨?_, hf⟩
    rw [Frame.chunks, Frame.length_cut, ← Frame.length_wire]
    exact hp
  have hsmall : ∀ chunk ∈ Frame.chunks message, chunk.length ≤ Frame.size := by
    intro chunk hmem
    exact Frame.length_le_of_mem_cut hmem
  obtain ⟨m, hm, hcarries, hposted⟩ := feeds_carries hsmall hchunks
  obtain ⟨n, hn, hempty, hclock, hwrites, hsent⟩ := flush_carries hcarries
  refine ⟨{ n with
    metrics := n.metrics.map (·.messageSent (Frame.count message.length) message.length) },
    ?_, hempty, hclock, hwrites, ?_⟩
  · unfold send
    rw [if_neg hne, Action.returns_get_bind, Action.returns_bind_of_ok hm,
      Action.returns_bind_of_ok hn]
    exact Action.returns_modify.mpr ⟨rfl, rfl⟩
  · rw [hsent, hposted, Frame.flatMap_pad_chunks]

/-- With nothing left from before, just the message is sent. -/
theorem send_of_passes {message : Bytes} (ho : k.outbound = []) (hf : k.stream.onFlush = .done)
    (hp : Stream.Passes (k.clock + k.timeouts.send) k.clock k.stream.writes
      (Frame.wire message).length time left) :
    ∃ m, (send message).Returns k (.ok ()) m ∧ m.outbound = [] ∧ m.clock = time ∧
      m.stream.writes = left ∧ m.stream.sent = k.stream.sent ++ Frame.wire message := by
  by_cases hempty : message = []
  · subst hempty
    obtain ⟨rfl, rfl⟩ := hp.eq_of_zero
    exact ⟨k, rfl, ho, rfl, rfl, (List.append_nil _).symm⟩
  · have hposted : k.posted = k.stream.sent := by
      rw [posted, ho, List.append_nil]
    rw [← hposted]
    apply send_after_of_passes hempty hf
    rw [ho, List.length_nil, Nat.zero_add]
    exact hp

/-- A peer that takes whatever it is sent, at once. -/
def Willing (k : Connection) : Prop :=
  k.stream.writes = [] ∧ k.stream.onFlush = .done

/-- A willing peer is sent any message, and no time goes by. -/
theorem send_of_willing (h : k.Willing) (message : Bytes) :
    ∃ left, (send message).Returns k (.ok ()) left ∧ left.clock = k.clock := by
  obtain ⟨hwrites, hflush⟩ := h
  by_cases hempty : message = []
  · subst hempty
    exact ⟨k, rfl, rfl⟩
  · have hpasses : Stream.Passes (k.clock + k.timeouts.send) k.clock k.stream.writes
        (k.outbound.length + (Frame.wire message).length) k.clock [] := by
      rw [hwrites]
      exact .free
    obtain ⟨m, hm, -, hclock, -⟩ := send_after_of_passes hempty hflush hpasses
    exact ⟨m, hm, hclock⟩

end Connection

end Courier
