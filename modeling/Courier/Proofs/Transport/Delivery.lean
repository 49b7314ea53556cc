import Courier.Proofs.Action
import Courier.Transport.Connection

namespace Courier

/-- What comes after the last byte that a peer delivers. -/
inductive StreamEnd where
  | closed
  | broken (f : Fault)
  | silent
  deriving DecidableEq

namespace StreamEnd

/-- What is told to one who wants to read on. -/
def error : StreamEnd → TransferError
  | closed => .connectionClosed
  | broken f => f.readError
  | silent => .timeout

def progress : StreamEnd → Stream.Progress
  | closed => .short
  | broken f => .fault f
  | silent => .expired

/-- The part of the delivered bytes that can be read: a closed stream hands on its last, short
frame, and any other one only whole frames. -/
def available (stop : StreamEnd) (s : Bytes) : Bytes :=
  match stop with
  | closed => s
  | broken _ | silent => s.take (s.length / Frame.size * Frame.size)

theorem available_eq_nil {stop : StreamEnd} {s : Bytes} (h : s.length < Frame.size)
    (hs : stop = .closed → s = []) : stop.available s = [] := by
  have hz : s.length / Frame.size = 0 := Nat.div_eq_of_lt h
  cases stop with
  | closed => exact hs rfl
  | broken f => simp [available, hz]
  | silent => simp [available, hz]

theorem take_available {stop : StreamEnd} {s : Bytes} (h : Frame.size ≤ s.length) :
    (stop.available s).take Frame.size = s.take Frame.size := by
  have hq : 1 ≤ s.length / Frame.size := (Nat.one_le_div_iff (by decide)).mpr h
  have hm : Frame.size ≤ s.length / Frame.size * Frame.size := Nat.le_mul_of_pos_left _ hq
  cases stop with
  | closed => rfl
  | broken f => rw [available, List.take_take, Nat.min_eq_left hm]
  | silent => rw [available, List.take_take, Nat.min_eq_left hm]

theorem drop_available {stop : StreamEnd} {s : Bytes} (h : Frame.size ≤ s.length) :
    (stop.available s).drop Frame.size = stop.available (s.drop Frame.size) := by
  have hd : (s.drop Frame.size).length / Frame.size = s.length / Frame.size - 1 := by
    simp only [List.length_drop, Frame.size] at h ⊢
    omega
  have hm : s.length / Frame.size * Frame.size - Frame.size =
      (s.length / Frame.size - 1) * Frame.size := by
    rw [Nat.sub_mul, Nat.one_mul]
  cases stop with
  | closed => rfl
  | broken f => rw [available, available, hd, List.drop_take, hm]
  | silent => rw [available, available, hd, List.drop_take, hm]

theorem available_ne_nil {stop : StreamEnd} {s : Bytes} (h : Frame.size ≤ s.length) :
    stop.available s ≠ [] := by
  intro hn
  have ht : (stop.available s).take Frame.size = s.take Frame.size := take_available h
  rw [hn, List.take_nil] at ht
  have hl := congrArg List.length ht
  simp only [List.length_nil, List.length_take, Frame.size] at hl h
  omega

end StreamEnd

theorem Clock.wait_of_le {limit now due : Nat} (h : due ≤ limit) :
    wait (some limit) now due = .reached (max now due) := by
  unfold wait
  split
  · rw [Nat.max_eq_left (by assumption)]
  · have hd : ¬limit < due := by omega
    simp only [hd, if_false]
    rw [Nat.max_eq_right (by omega)]

theorem Clock.wait_of_lt {limit now due : Nat} (h : limit < due) (hn : now ≤ limit) :
    wait (some limit) now due = .expired limit := by
  unfold wait
  rw [if_neg (by omega)]
  simp only [h, if_true]

namespace Stream

/-- From `now` on, the events bring the bytes `s` and then `stop`. Every wait for one of the bytes
is over by `limit`. -/
inductive Brings (limit : Nat) : Nat → List ReadEvent → Bytes → StreamEnd → Prop where
  | exhausted {now : Nat} : Brings limit now [] [] .closed
  | ended {now : Nat} {es : List ReadEvent} : Brings limit now (.ended :: es) [] .closed
  | fault {now : Nat} {f : Fault} {es : List ReadEvent} :
    Brings limit now (.fault f :: es) [] (.broken f)
  | hang {now : Nat} {es : List ReadEvent} : Brings limit now (.hang :: es) [] .silent
  | late {now ms : Nat} {due : Option Nat} {es : List ReadEvent} :
    now ≤ limit → limit < due.getD (now + ms) → Brings limit now (.pause ms due :: es) [] .silent
  | pause {now ms : Nat} {due : Option Nat} {es : List ReadEvent} {s : Bytes} {stop : StreamEnd} :
    due.getD (now + ms) ≤ limit → Brings limit (max now (due.getD (now + ms))) es s stop →
      Brings limit now (.pause ms due :: es) s stop
  | data {now : Nat} {bytes : Bytes} {es : List ReadEvent} {s : Bytes} {stop : StreamEnd} :
    Brings limit now es s stop → Brings limit now (.data bytes :: es) (bytes ++ s) stop

/-- Whatever a peer does, it brings some bytes and comes to an end. -/
theorem exists_brings {limit now : Nat} (h : now ≤ limit) (es : List ReadEvent) :
    ∃ s stop, Brings limit now es s stop := by
  induction es generalizing now with
  | nil => exact ⟨[], .closed, .exhausted⟩
  | cons e es ih =>
    cases e with
    | data bytes =>
      obtain ⟨s, stop, hs⟩ := ih h
      exact ⟨bytes ++ s, stop, .data hs⟩
    | ended => exact ⟨[], .closed, .ended⟩
    | fault f => exact ⟨[], .broken f, .fault⟩
    | hang => exact ⟨[], .silent, .hang⟩
    | pause ms due =>
      by_cases hd : due.getD (now + ms) ≤ limit
      · obtain ⟨s, stop, hs⟩ := ih (Nat.max_le.mpr ⟨h, hd⟩)
        exact ⟨s, stop, .pause hd hs⟩
      · exact ⟨[], .silent, .late h (Nat.lt_of_not_le hd)⟩

/-- Reading fills the buffer up to a frame if the bytes are there, and otherwise takes them all. -/
theorem fill_of_brings {limit now : Nat} {es : List ReadEvent} {s : Bytes} {stop : StreamEnd}
    (h : Brings limit now es s stop) (buffer : Bytes) (hb : buffer.length < Frame.size) :
    (Frame.size ≤ (buffer ++ s).length →
      (fill (some limit) now buffer es).progress = .done ∧
        Frame.size ≤ (fill (some limit) now buffer es).buffer.length ∧
        ∃ rest, Brings limit (fill (some limit) now buffer es).time
            (fill (some limit) now buffer es).reads rest stop ∧
          (fill (some limit) now buffer es).buffer ++ rest = buffer ++ s) ∧
    ((buffer ++ s).length < Frame.size →
      (fill (some limit) now buffer es).progress = stop.progress ∧
        (fill (some limit) now buffer es).buffer = buffer ++ s) := by
  induction h generalizing buffer with
  | exhausted => simp [fill, StreamEnd.progress]; omega
  | ended => simp [fill, StreamEnd.progress]; omega
  | fault => simp [fill, StreamEnd.progress]; omega
  | hang => simp [fill, stuck, StreamEnd.progress]; omega
  | late hn hl =>
    simp only [fill, Clock.wait_of_lt hl hn, StreamEnd.progress, List.append_nil]
    exact ⟨fun hs => absurd hs (by omega), fun _ => ⟨trivial, trivial⟩⟩
  | pause hd _ ih =>
    simp only [fill, Clock.wait_of_le hd]
    exact ih buffer hb
  | @data now bytes es s stop hes ih =>
    unfold fill
    split
    · rename_i hfull
      refine ⟨fun _ => ⟨rfl, hfull, s, hes, List.append_assoc _ _ _⟩, fun hs => ?_⟩
      simp only [List.length_append] at hs hfull
      omega
    · rename_i hshort
      have hi := ih (buffer ++ bytes) (by omega)
      rw [List.append_assoc] at hi
      exact hi

end Stream

namespace Connection

/-- Up to `limit`, just the bytes `a` can be taken off the connection, in frames, before `stop`. -/
inductive Yields (limit : Nat) (k : Connection) : Bytes → StreamEnd → Prop where
  | live {s : Bytes} {stop : StreamEnd} :
    k.interrupted = false → Stream.Brings limit k.clock k.stream.reads s stop →
      Yields limit k (stop.available (k.inbound ++ s)) stop
  | refused : k.interrupted = true → Yields limit k [] .closed

theorem Yields.congr {limit : Nat} {k left : Connection} {a : Bytes} {stop : StreamEnd}
    (h : k.Yields limit a stop) (hc : left.clock = k.clock)
    (hr : left.stream.reads = k.stream.reads) (hb : left.inbound = k.inbound)
    (hi : left.interrupted = k.interrupted) : left.Yields limit a stop := by
  cases h with
  | live hk hs =>
    rw [← hb]
    rw [← hi] at hk
    rw [← hc, ← hr] at hs
    exact .live hk hs
  | refused hk => exact .refused (hi.trans hk)

/-- Reading goes on: all but the input stays as it is. -/
def OnlyRead (k left : Connection) : Prop :=
  left = { k with
    clock := left.clock
    inbound := left.inbound
    interrupted := left.interrupted
    stream := { k.stream with reads := left.stream.reads } }

theorem OnlyRead.refl (k : Connection) : OnlyRead k k :=
  rfl

theorem OnlyRead.trans {k m left : Connection} (h : OnlyRead k m) (h' : OnlyRead m left) :
    OnlyRead k left := by
  unfold OnlyRead at h h' ⊢
  rw [h', h]

section OnlyRead

variable {k left : Connection}

theorem OnlyRead.log_eq (h : OnlyRead k left) : left.log = k.log := by
  unfold OnlyRead at h
  rw [h]

theorem OnlyRead.metrics_eq (h : OnlyRead k left) : left.metrics = k.metrics := by
  unfold OnlyRead at h
  rw [h]

theorem OnlyRead.timeouts_eq (h : OnlyRead k left) : left.timeouts = k.timeouts := by
  unfold OnlyRead at h
  rw [h]

end OnlyRead

theorem nextFrame_onlyRead (deadline : Option Nat) : (nextFrame deadline).Moves OnlyRead := by
  intro k r left h
  unfold Action.Returns nextFrame at h
  split at h
  · cases h
    rfl
  split at h
  · cases h
    rfl
  simp only at h
  split at h
  · cases h
    rfl
  · split at h
    · cases h
      rfl
    · cases h
      rfl
  · cases h
    rfl
  · cases h
    rfl
  · cases h

/-- While bytes can be taken off the connection, the next frame is made of the first of them. -/
theorem nextFrame_of_yields {limit : Nat} {k : Connection} {a : Bytes} {stop : StreamEnd}
    (h : k.Yields limit a stop) (ha : a ≠ []) :
    ∃ left, (nextFrame (some limit)).Returns k (.ok (a.take Frame.size)) left ∧
      left.Yields limit (a.drop Frame.size) stop := by
  cases h with
  | refused hi => exact absurd rfl ha
  | @live s stop hi hb =>
    by_cases hin : Frame.size ≤ k.inbound.length
    · have hs : Frame.size ≤ (k.inbound ++ s).length := by
        rw [List.length_append]
        omega
      refine ⟨{ k with inbound := k.inbound.drop Frame.size }, ?_, ?_⟩
      · rw [Action.returns_ok, StreamEnd.take_available hs, List.take_append_of_le_length hin]
        simp only [nextFrame, hi, hin, if_true, Bool.false_eq_true, if_false]
      · rw [StreamEnd.drop_available hs, List.drop_append_of_le_length hin]
        exact .live hi hb
    · have hlt : k.inbound.length < Frame.size := by omega
      obtain ⟨hfull, hshort⟩ := Stream.fill_of_brings hb k.inbound hlt
      by_cases hs : Frame.size ≤ (k.inbound ++ s).length
      · obtain ⟨hp, hl, rest, hrest, happ⟩ := hfull hs
        let r := Stream.fill (some limit) k.clock k.inbound k.stream.reads
        refine ⟨{ k with
          clock := r.time
          inbound := r.buffer.drop Frame.size
          stream := { k.stream with reads := r.reads } }, ?_, ?_⟩
        · rw [Action.returns_ok, StreamEnd.take_available hs, ← happ,
            List.take_append_of_le_length hl]
          simp only [nextFrame, hi, hin, if_false, Bool.false_eq_true, hp]
          rfl
        · rw [StreamEnd.drop_available hs, ← happ, List.drop_append_of_le_length hl]
          exact .live hi hrest
      · have hs' : (k.inbound ++ s).length < Frame.size := by omega
        obtain ⟨hp, hbuf⟩ := hshort hs'
        cases stop with
        | closed =>
          let r := Stream.fill (some limit) k.clock k.inbound k.stream.reads
          refine ⟨{ k with
            clock := r.time
            inbound := []
            interrupted := true
            stream := { k.stream with reads := r.reads } }, ?_, ?_⟩
          · rw [Action.returns_ok, StreamEnd.available, List.take_of_length_le (by omega)]
            have hne : ¬k.inbound ++ s = [] := ha
            simp only [nextFrame, hi, hin, if_false, Bool.false_eq_true, hp, StreamEnd.progress,
              hbuf, hne]
            rfl
          · rw [StreamEnd.available, List.drop_of_length_le (by omega)]
            exact .refused rfl
        | broken f => exact absurd (StreamEnd.available_eq_nil hs' (by simp)) ha
        | silent => exact absurd (StreamEnd.available_eq_nil hs' (by simp)) ha

/-- When none are left, who wants another frame is told why. -/
theorem nextFrame_of_yields_nil {limit : Nat} {k : Connection} {stop : StreamEnd}
    (h : k.Yields limit [] stop) :
    ∃ left, (nextFrame (some limit)).Returns k (.error stop.error) left := by
  generalize ha : ([] : Bytes) = a at h
  cases h with
  | refused hi =>
    exact ⟨{ k with interrupted := false }, by
      rw [Action.returns_error]
      simp only [nextFrame, hi, if_true]
      rfl⟩
  | @live s stop hi hb =>
    have hs : (k.inbound ++ s).length < Frame.size :=
      Nat.lt_of_not_le fun hn => StreamEnd.available_ne_nil hn ha.symm
    have hin : ¬Frame.size ≤ k.inbound.length := by
      rw [List.length_append] at hs
      omega
    obtain ⟨-, hshort⟩ := Stream.fill_of_brings hb k.inbound (by omega)
    obtain ⟨hp, hbuf⟩ := hshort hs
    let r := Stream.fill (some limit) k.clock k.inbound k.stream.reads
    cases stop with
    | closed =>
      have he : k.inbound ++ s = [] := ha.symm
      refine ⟨{ k with
        clock := r.time
        inbound := r.buffer
        stream := { k.stream with reads := r.reads } }, ?_⟩
      rw [Action.returns_error]
      simp only [nextFrame, hi, hin, if_false, Bool.false_eq_true, hp, StreamEnd.progress, hbuf, he,
        if_true]
      simp only [r, hbuf, he]
      rfl
    | broken f =>
      refine ⟨{ k with
        clock := r.time
        inbound := r.buffer
        interrupted := true
        stream := { k.stream with reads := r.reads } }, ?_⟩
      rw [Action.returns_error]
      simp only [nextFrame, hi, hin, if_false, Bool.false_eq_true, hp, StreamEnd.progress]
      rfl
    | silent =>
      refine ⟨{ k with
        clock := r.time
        inbound := r.buffer
        stream := { k.stream with reads := r.reads } }, ?_⟩
      rw [Action.returns_error]
      simp only [nextFrame, hi, hin, if_false, Bool.false_eq_true, hp, StreamEnd.progress]
      rfl

end Connection

end Courier
