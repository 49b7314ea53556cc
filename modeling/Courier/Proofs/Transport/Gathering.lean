import Courier.Proofs.Transport.Metering
import Courier.Proofs.Transport.Receiving

namespace Courier

/-- The bytes that come with an event. -/
def ReadEvent.bytes : ReadEvent → Bytes
  | .data bytes => bytes
  | _ => []

namespace Stream

/-- All bytes that are to come. -/
def incoming (es : List ReadEvent) : Bytes :=
  es.flatMap (·.bytes)

/-- From `now` on, with `buffer` read already, reading until there are `need` bytes gives `full`. Then
it is `time`, and `left` is still to happen. Every wait on the way is over by `limit`. -/
inductive Gathers (limit need : Nat) :
    Nat → List ReadEvent → Bytes → Nat → List ReadEvent → Bytes → Prop where
  | enough {now : Nat} {es : List ReadEvent} {buffer : Bytes} :
    need ≤ buffer.length → Gathers limit need now es buffer now es buffer
  | data {now time : Nat} {bytes buffer full : Bytes} {es left : List ReadEvent} :
    buffer.length < need → Gathers limit need now es (buffer ++ bytes) time left full →
      Gathers limit need now (.data bytes :: es) buffer time left full
  | pause {now ms time : Nat} {due : Option Nat} {buffer full : Bytes} {es left : List ReadEvent} :
    buffer.length < need → due.getD (now + ms) ≤ limit →
      Gathers limit need (max now (due.getD (now + ms))) es buffer time left full →
        Gathers limit need now (.pause ms due :: es) buffer time left full

section Gathers

variable {limit need now time : Nat} {es left : List ReadEvent} {buffer full : Bytes}

theorem Gathers.need_le (h : Gathers limit need now es buffer time left full) :
    need ≤ full.length := by
  induction h with
  | enough hn => exact hn
  | data _ _ ih => exact ih
  | pause _ _ _ ih => exact ih

/-- No byte is lost, and none comes out of order. -/
theorem Gathers.bytes_eq (h : Gathers limit need now es buffer time left full) :
    full ++ incoming left = buffer ++ incoming es := by
  induction h with
  | enough => rfl
  | data _ _ ih =>
    rw [ih, List.append_assoc]
    rfl
  | pause _ _ _ ih => exact ih

theorem Gathers.isPrefix (h : Gathers limit need now es buffer time left full) :
    buffer <+: full := by
  induction h with
  | enough => exact List.prefix_refl _
  | data _ _ ih => exact (List.prefix_append _ _).trans ih
  | pause _ _ _ ih => exact ih

/-- What is taken off the buffer is neither needed nor found later. -/
theorem Gathers.drop (h : Gathers limit need now es buffer time left full) {n : Nat}
    (hn : n ≤ buffer.length) :
    Gathers limit (need - n) now es (buffer.drop n) time left (full.drop n) := by
  induction h with
  | enough hneed =>
    apply Gathers.enough
    rw [List.length_drop]
    omega
  | @data now time bytes buffer full es left hlt _ ih =>
    have hlong : n ≤ (buffer ++ bytes).length := by
      rw [List.length_append]
      omega
    have hrest := ih hlong
    rw [List.drop_append_of_le_length hn] at hrest
    refine .data ?_ hrest
    rw [List.length_drop]
    omega
  | pause hlt hdue _ ih =>
    refine .pause ?_ hdue (ih hn)
    rw [List.length_drop]
    omega

/-- Filling the buffer up to a frame is a step on the way. -/
theorem Gathers.fill (h : Gathers limit need now es buffer time left full)
    (hneed : Frame.size ≤ need) (hb : buffer.length < Frame.size) :
    (fill (some limit) now buffer es).progress = .done ∧
      Frame.size ≤ (Stream.fill (some limit) now buffer es).buffer.length ∧
      Gathers limit need (Stream.fill (some limit) now buffer es).time
        (Stream.fill (some limit) now buffer es).reads
        (Stream.fill (some limit) now buffer es).buffer time left full := by
  induction h with
  | enough hn => omega
  | @data now time bytes buffer full es left hlt hrest ih =>
    unfold Stream.fill
    split
    · rename_i hfull
      exact ⟨rfl, hfull, hrest⟩
    · rename_i hshort
      exact ih (Nat.lt_of_not_le hshort)
  | pause hlt hdue hrest ih =>
    simp only [Stream.fill, Clock.wait_of_le hdue]
    exact ih hb

end Gathers

end Stream

namespace Connection

/-- Reading on comes to `need` bytes in time. -/
structure Gathers (limit need time : Nat) (left : List ReadEvent) (full : Bytes) (k : Connection) :
    Prop where
  uninterrupted : k.interrupted = false
  gathers : Stream.Gathers limit need k.clock k.stream.reads k.inbound time left full

variable {k : Connection} {limit need time : Nat} {left : List ReadEvent} {full : Bytes}

/-- The next frame is the first of what is gathered. -/
theorem nextFrame_of_gathers (h : k.Gathers limit need time left full)
    (hneed : Frame.size ≤ need) :
    ∃ m, (nextFrame (some limit)).Returns k (.ok (full.take Frame.size)) m ∧
      m.Gathers limit (need - Frame.size) time left (full.drop Frame.size) := by
  obtain ⟨hopen, hgathers⟩ := h
  have htake {buffer : Bytes} (hlong : Frame.size ≤ buffer.length) (hpre : buffer <+: full) :
      buffer.take Frame.size = full.take Frame.size := by
    obtain ⟨rest, rfl⟩ := hpre
    exact (List.take_append_of_le_length hlong).symm
  by_cases hin : Frame.size ≤ k.inbound.length
  · refine ⟨{ k with inbound := k.inbound.drop Frame.size }, ?_, hopen, hgathers.drop hin⟩
    rw [Action.returns_ok, ← htake hin hgathers.isPrefix]
    simp only [nextFrame, hopen, hin, if_true, Bool.false_eq_true, if_false]
  · obtain ⟨hdone, hlong, hrest⟩ := hgathers.fill hneed (Nat.lt_of_not_le hin)
    generalize hr : Stream.fill (some limit) k.clock k.inbound k.stream.reads = r
      at hdone hlong hrest
    refine ⟨{ k with
      clock := r.time
      inbound := r.buffer.drop Frame.size
      stream := { k.stream with reads := r.reads } }, ?_, hopen, hrest.drop hlong⟩
    rw [Action.returns_ok, ← htake hlong hrest.isPrefix]
    simp only [nextFrame, hopen, hin, if_false, Bool.false_eq_true, hr, hdone]

/-- Collecting has taken `data` and goes on to take all frames that are gathered for it. -/
def Collects (limit wanted most frames time : Nat) (left : List ReadEvent) (full data : Bytes)
    (k : Connection) : Prop :=
  ∃ m, (collect (some limit) wanted most data frames).Returns k
      (.ok (data ++ full.take (Frame.count (wanted - data.length) * Frame.size),
        frames + Frame.count (wanted - data.length))) m ∧
    m.Gathers limit 0 time left (full.drop (Frame.count (wanted - data.length) * Frame.size))

theorem collect_of_enough {deadline : Option Nat} {wanted : Nat} {data : Bytes}
    (h : wanted ≤ data.length) (most frames : Nat) :
    (collect deadline wanted most data frames).Returns k (.ok (data, frames)) k := by
  cases most with
  | zero => exact Action.returns_pure.mpr ⟨rfl, rfl⟩
  | succ most =>
    rw [collect, if_pos h]
    exact Action.returns_pure.mpr ⟨rfl, rfl⟩

theorem collects_of_enough {wanted : Nat} {data : Bytes} (hw : wanted ≤ data.length)
    (most frames : Nat)
    (h : k.Gathers limit (Frame.count (wanted - data.length) * Frame.size) time left full) :
    k.Collects limit wanted most frames time left full data := by
  have hz : wanted - data.length = 0 := by omega
  unfold Collects
  rw [hz, Frame.count_zero, Nat.zero_mul] at h ⊢
  refine ⟨k, ?_, h⟩
  rw [List.take_zero, List.append_nil]
  exact collect_of_enough hw most frames

theorem collects_of_gathers {wanted most frames : Nat} {data : Bytes}
    (hm : wanted ≤ data.length + most)
    (h : k.Gathers limit (Frame.count (wanted - data.length) * Frame.size) time left full) :
    k.Collects limit wanted most frames time left full data := by
  induction most generalizing k full data frames with
  | zero => exact collects_of_enough hm 0 frames h
  | succ most ih =>
    by_cases hw : wanted ≤ data.length
    · exact collects_of_enough hw _ frames h
    have hcount : Frame.count (wanted - data.length) =
        Frame.count (wanted - (data.length + Frame.size)) + 1 := by
      simp only [Frame.count, Frame.size]
      omega
    have hmul : Frame.count (wanted - data.length) * Frame.size =
        Frame.size + Frame.count (wanted - (data.length + Frame.size)) * Frame.size := by
      rw [hcount, Nat.add_mul, Nat.one_mul, Nat.add_comm]
    have hneed := h.gathers.need_le
    rw [hmul] at h hneed
    obtain ⟨m, hnext, hrest⟩ := nextFrame_of_gathers h (Nat.le_add_right _ _)
    have hlength : (data ++ full.take Frame.size).length = data.length + Frame.size := by
      rw [List.length_append, List.length_take]
      omega
    have hsize : 0 < Frame.size := by decide
    rw [Nat.add_sub_cancel_left, ← hlength] at hrest
    have hmore : m.Collects limit wanted most (frames + 1) time left (full.drop Frame.size)
        (data ++ full.take Frame.size) := ih (by omega) hrest
    obtain ⟨n, hn, hdone⟩ := hmore
    rw [hlength, List.append_assoc, ← List.take_add, ← hmul, Nat.add_assoc, Nat.add_comm 1,
      ← hcount] at hn
    rw [hlength, List.drop_drop, ← hmul] at hdone
    refine ⟨n, ?_, hdone⟩
    rw [collect, if_neg hw]
    exact (Action.returns_bind_of_ok hnext).mpr hn

/-- When nothing more is needed, the connection is as far as the gathering goes. -/
theorem Gathers.eq_of_zero (h : k.Gathers limit 0 time left full) :
    k.clock = time ∧ k.stream.reads = left ∧ k.inbound = full := by
  obtain ⟨-, hgathers⟩ := h
  generalize k.stream.reads = es at hgathers ⊢
  cases hgathers with
  | enough => exact ⟨rfl, rfl, rfl⟩
  | data hlt => omega
  | pause hlt => omega

/-- A message whose frames come within the time for it is received, and counted. -/
theorem receive_of_gathers {length : Nat}
    (h : k.Gathers (k.clock + k.timeouts.receive) (Frame.count length * Frame.size) time left full) :
    ∃ m, (receive length).Returns k (.ok (full.take length)) m ∧ m.clock = time ∧
      m.stream.reads = left ∧ m.inbound = full.drop (Frame.count length * Frame.size) ∧
      m.interrupted = false ∧ m.timeouts = k.timeouts ∧
      m.metrics = k.metrics.map (·.messageReceived (Frame.count length) length) := by
  have hcollects : k.Collects (k.clock + k.timeouts.receive) length length 0 time left full [] :=
    collects_of_gathers (Nat.le_add_left _ _) h
  obtain ⟨m, hm, hdone⟩ := hcollects
  obtain ⟨hclock, hreads, hinbound⟩ := hdone.eq_of_zero
  have honly := collect_onlyRead _ _ _ _ _ k _ m hm
  simp only [List.length_nil, Nat.sub_zero, List.nil_append, Nat.zero_add] at hm hinbound
  have henough : length ≤ (full.take (Frame.count length * Frame.size)).length := by
    have hle := Frame.le_count_mul length
    have hneed := h.gathers.need_le
    rw [List.length_take]
    omega
  have htake : (full.take (Frame.count length * Frame.size)).take length = full.take length := by
    rw [List.take_take, Nat.min_eq_left (Frame.le_count_mul length)]
  refine ⟨{ m with
    log := m.log ++ []
    metrics := m.metrics.map (·.messageReceived (Frame.count length) length) },
    ?_, hclock, hreads, hinbound, hdone.uninterrupted, honly.timeouts_eq, ?_⟩
  · refine Action.returns_get_bind.mpr ((Action.returns_bind_of_ok hm).mpr ?_)
    refine (Action.returns_bind_of_ok (Action.returns_modify.mpr ⟨rfl, rfl⟩)).mpr ?_
    refine (Action.returns_bind_of_ok (Action.returns_ofExcept.mpr ⟨rfl, rfl⟩)).mpr ?_
    refine (Action.returns_bind_of_ok (collect_of_enough henough _ _)).mpr ?_
    refine (Action.returns_bind_of_ok (Action.returns_modify.mpr ⟨rfl, rfl⟩)).mpr ?_
    exact Action.returns_pure.mpr ⟨congrArg Except.ok htake.symm, rfl⟩
  · simp only [honly.metrics_eq]

end Connection

end Courier
