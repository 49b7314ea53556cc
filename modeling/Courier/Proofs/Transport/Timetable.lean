import Courier.Proofs.Transport.Deadline

namespace Courier

/-- What reaches a reader: bytes, or the end of them. -/
inductive Arrival where
  | data (bytes : Bytes)
  | closed
  | broken (f : Fault)
  deriving DecidableEq

/-- What an event settles for one who has `held` bytes before it and waits for `wanted`. -/
def Arrival.settles (wanted held : Nat) : Arrival → Option (Except TransferError Unit)
  | .data bytes =>
    if Frame.count wanted * Frame.size ≤ held + bytes.length then some (.ok ()) else none
  | .closed => some (if wanted ≤ held then .ok () else .error .connectionClosed)
  | .broken f => some (.error f.readError)

namespace Stream

/-- What comes from `now` on, up to where the stream ends or breaks. -/
def arrivals (now : Nat) : List ReadEvent → List (Nat × Arrival)
  | [] => [(now, .closed)]
  | .ended :: _ => [(now, .closed)]
  | .fault f :: _ => [(now, .broken f)]
  | .hang :: _ => []
  | .data bytes :: es => (now, .data bytes) :: arrivals now es
  | .pause ms due :: es => arrivals (max now (due.getD (now + ms))) es

/-- The bytes among what comes. -/
def content (timetable : List (Nat × Arrival)) : Bytes :=
  timetable.flatMap fun p =>
    match p.2 with
    | .data bytes => bytes
    | _ => []

/-- When waiting for `wanted` bytes is over, and how, if `held` of them are there from `now` on. -/
def settled (wanted now held : Nat) :
    List (Nat × Arrival) → Option (Nat × Except TransferError Unit)
  | [] => if Frame.count wanted * Frame.size ≤ held then some (now, .ok ()) else none
  | (time, a) :: rest =>
    if Frame.count wanted * Frame.size ≤ held then some (now, .ok ())
    else
      match a with
      | .data bytes => settled wanted time (held + bytes.length) rest
      | .closed => some (time, if wanted ≤ held then .ok () else .error .connectionClosed)
      | .broken f => some (time, .error f.readError)

section Settled

variable {wanted now held : Nat} {l : List (Nat × Arrival)}

theorem settled_of_enough (h : Frame.count wanted * Frame.size ≤ held) :
    settled wanted now held l = some (now, .ok ()) := by
  cases l <;> simp [settled, h]

/-- The time at which a wait begins does not matter when something has to come. -/
theorem settled_of_less (h : held < Frame.count wanted * Frame.size) (now' : Nat) :
    settled wanted now held l = settled wanted now' held l := by
  have hless : ¬Frame.count wanted * Frame.size ≤ held := Nat.not_le_of_lt h
  cases l <;> simp [settled, hless]

/-- A frame that is there can be taken away from what is held and from what is wanted. -/
theorem settled_frame (hw : 1 ≤ wanted) (hh : Frame.size ≤ held) :
    settled wanted now held l = settled (wanted - Frame.size) now (held - Frame.size) l := by
  have hcount (held : Nat) (hh : Frame.size ≤ held) : Frame.count wanted * Frame.size ≤ held ↔
      Frame.count (wanted - Frame.size) * Frame.size ≤ held - Frame.size := by
    simp only [Frame.count, Frame.size] at hh ⊢
    omega
  induction l generalizing now held with
  | nil => simp only [settled, hcount held hh]
  | cons p rest ih =>
    obtain ⟨time, a⟩ := p
    simp only [settled, hcount held hh]
    split
    · rfl
    · rename_i hless
      cases a with
      | data bytes =>
        have hlong : Frame.size ≤ held + bytes.length := Nat.le_add_right_of_le hh
        have hsub : held + bytes.length - Frame.size = held - Frame.size + bytes.length := by omega
        simp only
        rw [ih hlong, hsub]
      | closed =>
        have hclosed : wanted ≤ held ↔ wanted - Frame.size ≤ held - Frame.size := by omega
        simp only [hclosed]
      | broken f => rfl

/-- A wait for fewer bytes ends well if one for more does. -/
theorem settled_mono {fewer : Nat} (hf : fewer ≤ wanted) {time : Nat}
    (h : settled wanted now held l = some (time, .ok ())) :
    ∃ sooner, settled fewer now held l = some (sooner, .ok ()) := by
  have hcount : Frame.count fewer * Frame.size ≤ Frame.count wanted * Frame.size :=
    Nat.mul_le_mul_right _ (Nat.div_le_div_right (by omega))
  induction l generalizing now held with
  | nil =>
    simp only [settled] at h
    split at h
    · rename_i hall
      exact ⟨now, settled_of_enough (Nat.le_trans hcount hall)⟩
    · cases h
  | cons p rest ih =>
    by_cases hfew : Frame.count fewer * Frame.size ≤ held
    · exact ⟨now, settled_of_enough hfew⟩
    · have hall : ¬Frame.count wanted * Frame.size ≤ held := fun hall =>
        hfew (Nat.le_trans hcount hall)
      obtain ⟨at', a⟩ := p
      simp only [settled, hfew, hall, if_false] at h ⊢
      cases a with
      | data bytes => exact ih h
      | closed =>
        by_cases hw : wanted ≤ held
        · exact ⟨at', by simp [Nat.le_trans hf hw]⟩
        · simp [hw] at h
      | broken f => simp at h

/-- The wait for `wanted` bytes is over at `time` with `r`: the frames they fill are there from the
start, or the event at `time` is the first one to settle it. -/
def SettledAt (wanted now held : Nat) (l : List (Nat × Arrival)) (time : Nat)
    (r : Except TransferError Unit) : Prop :=
  (Frame.count wanted * Frame.size ≤ held ∧ time = now ∧ r = .ok ()) ∨
  ∃ before a after, l = before ++ (time, a) :: after ∧
    (∀ p ∈ before, ∃ bytes, p.2 = .data bytes) ∧
    held + (content before).length < Frame.count wanted * Frame.size ∧
    a.settles wanted (held + (content before).length) = some r

theorem settledAt_of_data {time : Nat} {r : Except TransferError Unit} {bytes : Bytes} {due : Nat}
    (h : held < Frame.count wanted * Frame.size) :
    SettledAt wanted now held ((due, .data bytes) :: l) time r ↔
      SettledAt wanted due (held + bytes.length) l time r := by
  constructor
  · rintro (⟨hall, -⟩ | ⟨before, a, after, hl, hbytes, hless, hsettles⟩)
    · exact absurd hall (Nat.not_le_of_lt h)
    cases before with
    | nil =>
      obtain ⟨⟨rfl, rfl⟩, rfl⟩ := by simpa using hl
      by_cases hall : Frame.count wanted * Frame.size ≤ held + bytes.length
      · simp [Arrival.settles, content, hall] at hsettles
        exact .inl ⟨hall, rfl, hsettles.symm⟩
      · simp [Arrival.settles, content, hall] at hsettles
    | cons p before =>
      obtain ⟨rfl, rfl⟩ := by simpa using hl
      have hcontent : held + (content ((due, .data bytes) :: before)).length =
          held + bytes.length + (content before).length := by
        simp [content, Nat.add_assoc]
      rw [hcontent] at hless hsettles
      exact .inr ⟨before, a, after, rfl, fun q hq => hbytes q (List.mem_cons_of_mem _ hq), hless,
        hsettles⟩
  · rintro (⟨hall, rfl, rfl⟩ | ⟨before, a, after, rfl, hbytes, hless, hsettles⟩)
    · exact .inr ⟨[], .data bytes, l, rfl, by simp, by simpa [content] using h,
        by simp [Arrival.settles, content, hall]⟩
    · have hcontent : held + (content ((due, .data bytes) :: before)).length =
          held + bytes.length + (content before).length := by
        simp [content, Nat.add_assoc]
      refine .inr ⟨(due, .data bytes) :: before, a, after, rfl, ?_, ?_, ?_⟩
      · intro q hq
        rcases List.mem_cons.mp hq with rfl | hq
        · exact ⟨bytes, rfl⟩
        · exact hbytes q hq
      · rwa [hcontent]
      · rwa [hcontent]

/-- An event that brings no bytes settles the wait. -/
theorem settledAt_of_end {time : Nat} {r : Except TransferError Unit} {a : Arrival} {due : Nat}
    (h : held < Frame.count wanted * Frame.size) (ha : ∀ bytes, a ≠ .data bytes) :
    SettledAt wanted now held ((due, a) :: l) time r ↔
      time = due ∧ a.settles wanted held = some r := by
  constructor
  · rintro (⟨hall, -⟩ | ⟨before, b, after, hl, hbytes, -, hsettles⟩)
    · exact absurd hall (Nat.not_le_of_lt h)
    cases before with
    | nil =>
      obtain ⟨⟨rfl, rfl⟩, rfl⟩ := by simpa using hl
      exact ⟨rfl, by simpa [content] using hsettles⟩
    | cons p before =>
      obtain ⟨rfl, -⟩ := by simpa using hl
      obtain ⟨bytes, hb⟩ := hbytes _ List.mem_cons_self
      exact absurd hb (ha bytes)
  · rintro ⟨rfl, hsettles⟩
    exact .inr ⟨[], a, l, rfl, by simp, by simpa [content] using h,
      by simpa [content] using hsettles⟩

theorem settledAt_of_enough {time : Nat} {r : Except TransferError Unit}
    (h : Frame.count wanted * Frame.size ≤ held) :
    SettledAt wanted now held l time r ↔ time = now ∧ r = .ok () := by
  constructor
  · rintro (⟨-, htime, hr⟩ | ⟨before, a, after, -, -, hless, -⟩)
    · exact ⟨htime, hr⟩
    · omega
  · exact fun ⟨htime, hr⟩ => .inl ⟨h, htime, hr⟩

theorem settled_eq_some_iff {time : Nat} {r : Except TransferError Unit} :
    settled wanted now held l = some (time, r) ↔ SettledAt wanted now held l time r := by
  induction l generalizing now held with
  | nil =>
    by_cases hall : Frame.count wanted * Frame.size ≤ held
    · rw [settled_of_enough hall, settledAt_of_enough hall]
      simp [eq_comm]
    · simp [settled, SettledAt, hall]
  | cons p rest ih =>
    obtain ⟨due, a⟩ := p
    by_cases hall : Frame.count wanted * Frame.size ≤ held
    · rw [settled_of_enough hall, settledAt_of_enough hall]
      simp [eq_comm]
    · have hless := Nat.lt_of_not_le hall
      cases a with
      | data bytes =>
        rw [settledAt_of_data hless, ← ih]
        simp only [settled, hall, if_false]
      | closed =>
        rw [settledAt_of_end hless (by simp)]
        simp [settled, hall, Arrival.settles, eq_comm]
      | broken f =>
        rw [settledAt_of_end hless (by simp)]
        simp [settled, hall, Arrival.settles, eq_comm]

end Settled

/-- How a wait that filled a buffer goes on. -/
def Filled.settled (wanted : Nat) (r : Filled) : Option (Nat × Except TransferError Unit) :=
  match r.progress with
  | .done => Stream.settled wanted r.time r.buffer.length (arrivals r.time r.reads)
  | .short => some (r.time, if wanted ≤ r.buffer.length then .ok () else .error .connectionClosed)
  | .fault f => some (r.time, .error f.readError)
  | .expired => some (r.time, .error .timeout)
  | .hung => none

/-- The bytes that are there or still to come after a buffer was filled. -/
def Filled.coming (r : Filled) : Bytes :=
  match r.progress with
  | .done => r.buffer ++ content (arrivals r.time r.reads)
  | _ => r.buffer

/-- Filling a buffer came as far as `r`: what was to come is there or still to come, and whatever is
wanted, the wait for it goes on from there. -/
structure Filled.Continues (r : Filled) (now : Nat) (buffer : Bytes) (l : List (Nat × Arrival)) :
    Prop where
  unlimited : r.progress ≠ .expired
  full : r.progress = .done → Frame.size ≤ r.buffer.length
  coming : r.coming = buffer ++ content l
  settled : ∀ wanted, 1 ≤ wanted →
    Stream.settled wanted now buffer.length l = r.settled wanted

theorem less_of_one_le {wanted held : Nat} (hw : 1 ≤ wanted) (hh : held < Frame.size) :
    held < Frame.count wanted * Frame.size := by
  simp only [Frame.count, Frame.size] at hh ⊢
  omega

theorem fill_continues (now : Nat) (buffer : Bytes) (es : List ReadEvent)
    (hb : buffer.length < Frame.size) :
    (fill none now buffer es).Continues now buffer (arrivals now es) := by
  induction es generalizing now buffer with
  | nil =>
    refine ⟨by simp [fill], by simp [fill], by simp [fill, Filled.coming, arrivals, content], ?_⟩
    intro wanted hw
    have hless := Nat.not_le_of_lt (less_of_one_le hw hb)
    simp only [arrivals, settled, fill, Filled.settled, hless, if_false]
    rfl
  | cons e es ih =>
    cases e with
    | data bytes =>
      have hcontent : buffer ++ content (arrivals now (.data bytes :: es)) =
          buffer ++ bytes ++ content (arrivals now es) := by
        simp [arrivals, content]
      have hstep (wanted : Nat) (hw : 1 ≤ wanted) :
          settled wanted now buffer.length (arrivals now (.data bytes :: es)) =
            settled wanted now (buffer ++ bytes).length (arrivals now es) := by
        have hless := Nat.not_le_of_lt (less_of_one_le hw hb)
        simp only [arrivals, settled, hless, if_false, List.length_append]
      by_cases hfull : Frame.size ≤ (buffer ++ bytes).length
      · rw [fill, if_pos hfull]
        exact ⟨by simp, fun _ => hfull, hcontent.symm, hstep⟩
      · rw [fill, if_neg hfull]
        have hrest := ih now (buffer ++ bytes) (Nat.lt_of_not_le hfull)
        refine ⟨hrest.unlimited, hrest.full, hrest.coming.trans hcontent.symm, ?_⟩
        intro wanted hw
        exact (hstep wanted hw).trans (hrest.settled wanted hw)
    | ended =>
      refine ⟨by simp [fill], by simp [fill], by simp [fill, Filled.coming, arrivals, content], ?_⟩
      intro wanted hw
      have hless := Nat.not_le_of_lt (less_of_one_le hw hb)
      simp only [arrivals, settled, fill, Filled.settled, hless, if_false]
      rfl
    | fault f =>
      refine ⟨by simp [fill], by simp [fill], by simp [fill, Filled.coming, arrivals, content], ?_⟩
      intro wanted hw
      have hless := Nat.not_le_of_lt (less_of_one_le hw hb)
      simp [arrivals, settled, fill, Filled.settled, hless]
    | hang =>
      refine ⟨by simp [fill, stuck], by simp [fill, stuck],
        by simp [fill, stuck, Filled.coming, arrivals, content], ?_⟩
      intro wanted hw
      have hless := Nat.not_le_of_lt (less_of_one_le hw hb)
      simp [arrivals, settled, fill, stuck, Filled.settled, hless]
    | pause ms due =>
      have hrest := ih (max now (due.getD (now + ms))) buffer hb
      simp only [fill, arrivals, Clock.wait_none]
      refine ⟨hrest.unlimited, hrest.full, hrest.coming, ?_⟩
      intro wanted hw
      rw [← hrest.settled wanted hw]
      exact settled_of_less (less_of_one_le hw hb) _

end Stream

end Courier
