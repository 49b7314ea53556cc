import Courier.Transport.Frame

namespace Courier.Frame

section Operations

theorem encode_of_le {chunk : Bytes} (h : chunk.length ≤ size) (buffer : Bytes) :
    encode chunk buffer = .ok (buffer ++ (chunk ++ List.replicate (size - chunk.length) 0)) :=
  if_neg (Nat.not_lt.mpr h)

theorem encode_of_lt {chunk : Bytes} (h : size < chunk.length) (buffer : Bytes) :
    encode chunk buffer =
      .error (.writeFailed s!"chunk of {chunk.length} bytes exceeds frame size {size}") :=
  if_pos h

theorem decode_of_lt {buffer : Bytes} (h : buffer.length < size) :
    decode buffer = (none, buffer) :=
  if_pos h

theorem decode_of_le {buffer : Bytes} (h : size ≤ buffer.length) :
    decode buffer = (some (buffer.take size), buffer.drop size) :=
  if_neg (Nat.not_lt.mpr h)

theorem decode_eq_none_iff {buffer : Bytes} : (decode buffer).1 = none ↔ buffer.length < size := by
  by_cases h : buffer.length < size
  · simp [decode_of_lt h, h]
  · simp [decode_of_le (Nat.le_of_not_lt h), h]

theorem length_of_decode {buffer frame rest : Bytes} (h : decode buffer = (some frame, rest)) :
    frame.length = size := by
  have hle : size ≤ buffer.length := by
    apply Nat.le_of_not_lt
    intro hlt
    simp [decode_of_lt hlt] at h
  rw [decode_of_le hle] at h
  have hframe : buffer.take size = frame := by simpa using congrArg Prod.fst h
  rw [← hframe]
  exact List.length_take_of_le hle

theorem decodeEnd_nil : decodeEnd [] = (none, []) :=
  rfl

theorem decodeEnd_of_ne_nil {buffer : Bytes} (h : buffer ≠ []) :
    decodeEnd buffer = (some (buffer.take size), buffer.drop size) :=
  if_neg h

theorem decodeEnd_eq_none_iff {buffer : Bytes} : (decodeEnd buffer).1 = none ↔ buffer = [] := by
  by_cases h : buffer = []
  · simp [h, decodeEnd_nil]
  · simp [decodeEnd_of_ne_nil h, h]

/-- What fills no frame is the last frame. -/
theorem decodeEnd_of_lt {buffer : Bytes} (hne : buffer ≠ []) (h : buffer.length < size) :
    decodeEnd buffer = (some buffer, []) := by
  rw [decodeEnd_of_ne_nil hne, List.take_of_length_le (Nat.le_of_lt h),
    List.drop_of_length_le (Nat.le_of_lt h)]

/-- A frame is short just if the buffer is. -/
theorem length_decodeEnd_lt_iff {buffer : Bytes} :
    (∃ frame rest, decodeEnd buffer = (some frame, rest) ∧ frame.length < size) ↔
      1 ≤ buffer.length ∧ buffer.length < size := by
  constructor
  · rintro ⟨frame, rest, h, hshort⟩
    have hne : buffer ≠ [] := by
      rintro rfl
      simp [decodeEnd_nil] at h
    rw [decodeEnd_of_ne_nil hne] at h
    have hframe : buffer.take size = frame := by simpa using congrArg Prod.fst h
    rw [← hframe, List.length_take] at hshort
    exact ⟨List.length_pos_iff.mpr hne, by omega⟩
  · rintro ⟨hpos, hlt⟩
    exact ⟨buffer, [], decodeEnd_of_lt (List.length_pos_iff.mp hpos) hlt, hlt⟩

end Operations

/-- What can be done with a buffer. -/
inductive Step where
  | encode (chunk : Bytes)
  | push (bytes : Bytes)
  | decode
  | decodeEnd
  deriving DecidableEq

namespace Step

/-- What a step adds to the buffer: a chunk as a whole frame, or nothing if it is too long for one. -/
def input : Step → Bytes
  | encode chunk =>
    if chunk.length ≤ size then chunk ++ List.replicate (size - chunk.length) 0 else []
  | push bytes => bytes
  | decode => []
  | decodeEnd => []

/-- The frame that a step takes, and the buffer that it leaves. -/
def apply : Step → Bytes → Option Bytes × Bytes
  | encode chunk, buffer =>
    match Frame.encode chunk buffer with
    | .ok longer => (none, longer)
    | .error _ => (none, buffer)
  | push bytes, buffer => (none, buffer ++ bytes)
  | decode, buffer => Frame.decode buffer
  | decodeEnd, buffer => Frame.decodeEnd buffer

theorem apply_encode (chunk buffer : Bytes) :
    (encode chunk).apply buffer = (none, buffer ++ (encode chunk).input) := by
  by_cases h : chunk.length ≤ size
  · simp [apply, input, encode_of_le h, h]
  · simp [apply, input, encode_of_lt (Nat.lt_of_not_le h), h]

/-- A step neither loses nor makes up a byte. -/
theorem apply_conserves (step : Step) (buffer : Bytes) :
    (step.apply buffer).1.toList.flatten ++ (step.apply buffer).2 = buffer ++ step.input := by
  cases step with
  | encode chunk => simp [apply_encode]
  | push bytes => simp [apply, input]
  | decode =>
    by_cases h : buffer.length < size
    · simp [apply, input, decode_of_lt h]
    · simp [apply, input, decode_of_le (Nat.le_of_not_lt h)]
  | decodeEnd =>
    by_cases h : buffer = []
    · simp [apply, input, h, decodeEnd_nil]
    · simp [apply, input, decodeEnd_of_ne_nil h]

end Step

/-- The frames that steps take, one step after the other, and the buffer that they leave. -/
def run : List Step → Bytes → List Bytes × Bytes
  | [], buffer => ([], buffer)
  | step :: steps, buffer =>
    let later := run steps (step.apply buffer).2
    ((step.apply buffer).1.toList ++ later.1, later.2)

/-- All that steps add. -/
def input (steps : List Step) : Bytes :=
  steps.flatMap Step.input

theorem run_conserves (steps : List Step) (buffer : Bytes) :
    (run steps buffer).1.flatten ++ (run steps buffer).2 = buffer ++ input steps := by
  induction steps generalizing buffer with
  | nil => simp [run, input]
  | cons step steps ih =>
    have hstep := step.apply_conserves buffer
    calc (run (step :: steps) buffer).1.flatten ++ (run (step :: steps) buffer).2
        = (step.apply buffer).1.toList.flatten ++
            ((run steps (step.apply buffer).2).1.flatten ++
              (run steps (step.apply buffer).2).2) := by simp [run]
      _ = (step.apply buffer).1.toList.flatten ++ (step.apply buffer).2 ++ input steps := by
          rw [ih, List.append_assoc]
      _ = buffer ++ input (step :: steps) := by
          rw [hstep, List.append_assoc]
          rfl

section Chunks

theorem chunks_nil : chunks [] = [] :=
  rfl

theorem chunks_of_le {bs : Bytes} (h : size ≤ bs.length) :
    chunks bs = bs.take size :: chunks (bs.drop size) := by
  have hcount : count bs.length = count (bs.drop size).length + 1 := by
    rw [List.length_drop]
    simp only [count, size] at h ⊢
    omega
  unfold chunks
  rw [hcount, cut]

theorem chunks_of_lt {bs : Bytes} (hne : bs ≠ []) (h : bs.length < size) : chunks bs = [bs] := by
  have hpos := List.length_pos_iff.mpr hne
  have hcount : count bs.length = 1 := by
    simp only [count, size] at h ⊢
    omega
  unfold chunks
  rw [hcount, cut, cut, List.take_of_length_le (Nat.le_of_lt h)]

/-- A whole frame in front is a chunk of its own. -/
theorem chunks_append {frame : Bytes} (h : frame.length = size) (bs : Bytes) :
    chunks (frame ++ bs) = frame :: chunks bs := by
  have hle : size ≤ (frame ++ bs).length := by
    rw [List.length_append]
    omega
  rw [chunks_of_le hle, ← h, List.take_left, List.drop_left]

end Chunks

/-- Frames are taken in one way until there is none. -/
inductive Drains (take : Bytes → Option Bytes × Bytes) : Bytes → List Bytes → Bytes → Prop where
  | done {buffer rest : Bytes} : take buffer = (none, rest) → Drains take buffer [] rest
  | next {buffer rest last frame : Bytes} {frames : List Bytes} :
    take buffer = (some frame, rest) → Drains take rest frames last →
      Drains take buffer (frame :: frames) last

/-- All frames are taken: the whole ones first, and then what is left. -/
def IsDrained (buffer : Bytes) (frames : List Bytes) : Prop :=
  ∃ whole rest short last, Drains decode buffer whole rest ∧ Drains decodeEnd rest short last ∧
    frames = whole ++ short

theorem Drains.unique {take : Bytes → Option Bytes × Bytes} {buffer rest rest' : Bytes}
    {frames frames' : List Bytes} (h : Drains take buffer frames rest)
    (h' : Drains take buffer frames' rest') : frames = frames' ∧ rest = rest' := by
  induction h generalizing frames' with
  | done htake =>
    cases h' with
    | done htake' => simpa using htake.symm.trans htake'
    | next htake' _ => simp [htake] at htake'
  | next htake _ ih =>
    cases h' with
    | done htake' => simp [htake] at htake'
    | next htake' hlater =>
      obtain ⟨rfl, rfl⟩ : _ = _ ∧ _ = _ := by simpa using htake.symm.trans htake'
      obtain ⟨rfl, rfl⟩ := ih hlater
      exact ⟨rfl, rfl⟩

/-- What fills no frame is drained at the end only. -/
theorem drains_decodeEnd_of_lt {buffer : Bytes} (h : buffer.length < size) :
    Drains decodeEnd buffer (chunks buffer) [] := by
  by_cases hne : buffer = []
  · rw [hne, chunks_nil]
    exact .done decodeEnd_nil
  · rw [chunks_of_lt hne h]
    exact .next (decodeEnd_of_lt hne h) (.done decodeEnd_nil)

/-- Draining ends, with the chunks of the buffer. -/
theorem isDrained_chunks (buffer : Bytes) : IsDrained buffer (chunks buffer) := by
  by_cases h : buffer.length < size
  · exact ⟨[], buffer, chunks buffer, [], .done (decode_of_lt h), drains_decodeEnd_of_lt h, rfl⟩
  · have hle := Nat.le_of_not_lt h
    obtain ⟨whole, rest, short, last, hwhole, hshort, hframes⟩ :=
      isDrained_chunks (buffer.drop size)
    refine ⟨buffer.take size :: whole, rest, short, last, .next (decode_of_le hle) hwhole, hshort, ?_⟩
    rw [chunks_of_le hle, hframes, List.cons_append]
termination_by buffer.length
decreasing_by
  simp only [List.length_drop, size] at hle ⊢
  omega

theorem isDrained_iff {buffer : Bytes} {frames : List Bytes} :
    IsDrained buffer frames ↔ frames = chunks buffer := by
  constructor
  · rintro ⟨whole, rest, short, last, hwhole, hshort, rfl⟩
    obtain ⟨whole', rest', short', last', hwhole', hshort', hframes⟩ := isDrained_chunks buffer
    obtain ⟨rfl, rfl⟩ := hwhole.unique hwhole'
    obtain ⟨rfl, -⟩ := hshort.unique hshort'
    exact hframes.symm
  · rintro rfl
    exact isDrained_chunks buffer

/-- A step that takes no short frame takes a chunk from the front, or none. -/
theorem chunks_apply {step : Step} (h : step ≠ .decodeEnd) (buffer later : Bytes) :
    (step.apply buffer).1.toList ++ chunks ((step.apply buffer).2 ++ later) =
      chunks (buffer ++ (step.input ++ later)) := by
  cases step with
  | encode chunk => simp [Step.apply_encode]
  | push bytes => simp [Step.apply, Step.input]
  | decode =>
    by_cases hlt : buffer.length < size
    · simp [Step.apply, Step.input, decode_of_lt hlt]
    · have hle := Nat.le_of_not_lt hlt
      have hframe : (buffer.take size).length = size := List.length_take_of_le hle
      have hbuffer : buffer ++ later = buffer.take size ++ (buffer.drop size ++ later) := by
        rw [← List.append_assoc, List.take_append_drop]
      simp [Step.apply, Step.input, decode_of_le hle, hbuffer, chunks_append hframe]
  | decodeEnd => exact absurd rfl h

/-- Frames taken on the way and chunks left are the chunks of all. -/
theorem run_chunks {steps : List Step} (h : Step.decodeEnd ∉ steps) (buffer : Bytes) :
    (run steps buffer).1 ++ chunks (run steps buffer).2 = chunks (buffer ++ input steps) := by
  induction steps generalizing buffer with
  | nil => simp [run, input]
  | cons step steps ih =>
    obtain ⟨hstep, hsteps⟩ : Step.decodeEnd ≠ step ∧ Step.decodeEnd ∉ steps := by simpa using h
    calc (run (step :: steps) buffer).1 ++ chunks (run (step :: steps) buffer).2
        = (step.apply buffer).1.toList ++ ((run steps (step.apply buffer).2).1 ++
            chunks (run steps (step.apply buffer).2).2) := by simp [run]
      _ = (step.apply buffer).1.toList ++ chunks ((step.apply buffer).2 ++ input steps) := by
          rw [ih hsteps]
      _ = chunks (buffer ++ input (step :: steps)) := chunks_apply hstep.symm buffer (input steps)

/-- Nothing is lost or made up, in whatever order a buffer is added to and taken from. A chunk goes in
as a whole frame or not at all; a frame comes out whole, and short only as all that is left at the
end. The frames are the same, however the bytes came in and whenever whole frames were taken. -/
theorem frames_are_what_was_added :
    (∀ steps, (run steps []).1.flatten ++ (run steps []).2 = input steps) ∧
    (∀ chunk buffer,
      (chunk.length ≤ size →
        encode chunk buffer = .ok (buffer ++ (chunk ++ List.replicate (size - chunk.length) 0))) ∧
      (size < chunk.length →
        encode chunk buffer =
          .error (.writeFailed s!"chunk of {chunk.length} bytes exceeds frame size {size}") ∧
        (Step.encode chunk).apply buffer = (none, buffer))) ∧
    (∀ buffer,
      (∀ frame rest, decode buffer = (some frame, rest) → frame.length = size) ∧
      ((decode buffer).1 = none ↔ buffer.length < size) ∧
      ((decode buffer).1 = none → (decode buffer).2 = buffer)) ∧
    (∀ buffer,
      ((∃ frame rest, decodeEnd buffer = (some frame, rest) ∧ frame.length < size) ↔
        1 ≤ buffer.length ∧ buffer.length < size) ∧
      (1 ≤ buffer.length → buffer.length < size → decodeEnd buffer = (some buffer, [])) ∧
      ((decodeEnd buffer).1 = none ↔ buffer = [])) ∧
    (∀ steps, Step.decodeEnd ∉ steps →
      ∃ frames, IsDrained (run steps []).2 frames ∧
        (run steps []).1 ++ frames = chunks (input steps)) ∧
    ∀ steps steps' frames frames', Step.decodeEnd ∉ steps → Step.decodeEnd ∉ steps' →
      input steps = input steps' →
        IsDrained (run steps []).2 frames → IsDrained (run steps' []).2 frames' →
          (run steps []).1 ++ frames = (run steps' []).1 ++ frames' := by
  refine ⟨fun steps => run_conserves steps [], fun chunk buffer => ⟨fun h => encode_of_le h buffer, ?_⟩,
    fun buffer => ⟨fun _ _ => length_of_decode, decode_eq_none_iff, ?_⟩,
    fun buffer => ⟨length_decodeEnd_lt_iff, ?_, decodeEnd_eq_none_iff⟩, ?_, ?_⟩
  · intro h
    refine ⟨encode_of_lt h buffer, ?_⟩
    simp [Step.apply, encode_of_lt h]
  · intro h
    rw [decode_of_lt (decode_eq_none_iff.mp h)]
  · intro hpos hlt
    exact decodeEnd_of_lt (List.length_pos_iff.mp hpos) hlt
  · intro steps h
    exact ⟨chunks (run steps []).2, isDrained_chunks _, run_chunks h []⟩
  · intro steps steps' frames frames' h h' hinput hframes hframes'
    rw [isDrained_iff.mp hframes, isDrained_iff.mp hframes', run_chunks h [], run_chunks h' [], hinput]

/-- A frame and a half, in two parts with a frame taken after each, or at once with none taken. -/
theorem frames_are_what_was_added_in_two_parts :
    ∃ frames frames',
      IsDrained (run [.push (List.replicate 1000 7), .decode, .push (List.replicate 536 7), .decode]
        []).2 frames ∧
      IsDrained (run [.push (List.replicate 1536 7)] []).2 frames' ∧
      frames' = List.replicate 1024 7 :: frames := by
  let parted : List Step :=
    [.push (List.replicate 1000 7), .decode, .push (List.replicate 536 7), .decode]
  let whole : List Step := [.push (List.replicate 1536 7)]
  have hparted : Step.decodeEnd ∉ parted := by decide
  have hwhole : Step.decodeEnd ∉ whole := by decide
  have hinput : input parted = input whole := by decide +kernel
  have htaken : (run parted []).1 = [List.replicate 1024 7] := by decide +kernel
  obtain ⟨-, -, -, -, hdrained, hsame⟩ := frames_are_what_was_added
  obtain ⟨frames, hframes, -⟩ := hdrained parted hparted
  obtain ⟨frames', hframes', -⟩ := hdrained whole hwhole
  have heq := hsame parted whole frames frames' hparted hwhole hinput hframes hframes'
  rw [htaken] at heq
  exact ⟨frames, frames', hframes, hframes', heq.symm⟩

end Courier.Frame
