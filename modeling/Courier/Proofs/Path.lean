import Courier.Path
import Courier.Proofs.Wire.Name

namespace Courier

namespace Path

section Split

theorem split_eq_splitOn (path : Bytes) : split path = path.splitOn 0x2F := by
  induction path with
  | nil => rfl
  | cons b bs ih =>
    rw [split, ih, List.splitOn_cons_eq_if_modifyHead]
    simp only [beq_iff_eq]
    split
    · rfl
    · cases hbs : bs.splitOn 0x2F with
      | nil => exact absurd hbs (List.splitOn_ne_nil _ _)
      | cons part parts => rfl

theorem segments_eq (path : Bytes) :
    segments path = (path.splitOn 0x2F).filter fun s => s ≠ [] ∧ s ≠ [0x2E] := by
  rw [segments, split_eq_splitOn]

/-- No part has a slash. -/
theorem slash_notMem_of_mem_split {path part : Bytes} (h : part ∈ split path) : 0x2F ∉ part := by
  induction path generalizing part with
  | nil =>
    rw [List.mem_singleton.mp h]
    exact List.not_mem_nil
  | cons b bs ih =>
    rw [split] at h
    split at h
    · rcases List.mem_cons.mp h with rfl | h
      · exact List.not_mem_nil
      · exact ih h
    · rename_i hb
      have hb : ¬0x2F = b := fun h => hb h.symm
      split at h
      · rename_i first parts hbs
        rw [hbs] at ih
        rcases List.mem_cons.mp h with rfl | h
        · simp [hb, ih (List.mem_cons_self ..)]
        · exact ih (List.mem_cons_of_mem _ h)
      · rw [List.mem_singleton.mp h]
        simp [hb]

end Split

section Segments

variable {path s : Bytes}

theorem mem_segments_iff : s ∈ segments path ↔ s ∈ split path ∧ s ≠ [] ∧ s ≠ [0x2E] := by
  unfold segments
  rw [List.mem_filter, decide_eq_true_eq]

@[simp] theorem segments_nil : segments [] = [] := rfl

@[simp] theorem segments_dot : segments [0x2E] = [] := by decide

/-- A slash parts the segments before it from those after it. -/
@[simp] theorem segments_append_slash (p q : Bytes) :
    segments (p ++ 0x2F :: q) = segments p ++ segments q := by
  simp only [segments_eq, List.splitOn_append_cons_self, List.filter_append]

/-- What names nothing where it follows a path: slashes, each of them with a dot after it or not. -/
inductive IsTrail : Bytes → Prop where
  | nil : IsTrail []
  | slash {tail : Bytes} : IsTrail tail → IsTrail (0x2F :: tail)
  | dot {tail : Bytes} : IsTrail tail → IsTrail (0x2F :: 0x2E :: tail)

theorem segments_append_trail {tail : Bytes} (h : IsTrail tail) (path : Bytes) :
    segments (path ++ tail) = segments path := by
  -- What heads the tail goes over to the path, which keeps its segments.
  induction h generalizing path with
  | nil => rw [List.append_nil]
  | @slash tail _ ih =>
    have hcut : path ++ 0x2F :: tail = (path ++ [0x2F]) ++ tail := by simp
    rw [hcut, ih, segments_append_slash, segments_nil, List.append_nil]
  | @dot tail _ ih =>
    have hcut : path ++ 0x2F :: 0x2E :: tail = (path ++ [0x2F, 0x2E]) ++ tail := by simp
    rw [hcut, ih, segments_append_slash, segments_dot, List.append_nil]

end Segments

section Components

/-- What a path is made of. -/
inductive Component where
  | root
  | here
  | up
  | normal (name : Bytes)

namespace Component

def ofSegment (s : Bytes) : Component :=
  if s = [0x2E, 0x2E] then .up else .normal s

def name? : Component → Option Bytes
  | .normal name => some name
  | .root | .here | .up => none

end Component

/-- The components from left to right. A slash counts at the head of a path, and so does a dot, which
counts nowhere else. -/
def components (path : Bytes) : List Component :=
  (if path.head? = some 0x2F then [.root]
    else if (path.splitOn 0x2F).head? = some [0x2E] then [.here] else []) ++
    ((path.splitOn 0x2F).filter fun s => s ≠ [] ∧ s ≠ [0x2E]).map Component.ofSegment

theorem name?_ofSegment (s : Bytes) :
    (Component.ofSegment s).name? = (some s).filter (· ≠ [0x2E, 0x2E]) := by
  unfold Component.ofSegment
  by_cases hup : s = [0x2E, 0x2E] <;> simp [hup, Component.name?, Option.filter]

/-- The file name is the last component, if that is one with a name. -/
theorem fileName?_eq (path : Bytes) :
    fileName? path = (components path).getLast?.bind Component.name? := by
  unfold fileName? components
  rw [← segments_eq, List.getLast?_append, List.getLast?_map]
  cases (segments path).getLast? with
  | some s => exact (name?_ofSegment s).symm
  | none =>
    split
    · rfl
    · split <;> rfl

end Components

section WireName

variable {path : Bytes} {n : Name}

theorem fileName?_eq_some_iff {s : Bytes} :
    fileName? path = some s ↔ (segments path).getLast? = some s ∧ s ≠ [0x2E, 0x2E] := by
  unfold fileName?
  rw [Option.filter_eq_some_iff, decide_eq_true_eq]

theorem wireName_eq_ok_iff : wireName path = .ok n ↔
    ∃ s, fileName? path = some s ∧
      ∃ cs, Text.Utf8.decode? s = some cs ∧ Name.ofText (String.ofList cs) = .ok n := by
  unfold wireName
  cases fileName? path with
  | none => simp
  | some s => cases hs : Text.Utf8.decode? s <;> simp [hs]

theorem wireName_congr {q : Bytes} (h : segments path = segments q) :
    wireName path = wireName q := by
  unfold wireName fileName?
  rw [h]

/-- What goes on the wire is the last segment. -/
theorem segment_of_wireName (h : wireName path = .ok n) :
    (segments path).getLast? = some n.bytes ∧ n.bytes ≠ [0x2E, 0x2E] ∧ n.bytes.length ≤ 254 ∧
      (∀ b ∈ n.bytes, Name.IsPrintableByte b) ∧ n.reread = n := by
  obtain ⟨s, hs, cs, hcs, hn⟩ := wireName_eq_ok_iff.mp h
  obtain ⟨hlength, hp, rfl⟩ := Name.exists_ofText_iff.mp ⟨cs, hcs, hn⟩
  obtain ⟨hlast, hup⟩ := fileName?_eq_some_iff.mp hs
  exact ⟨hlast, hup, hlength, hp, Name.reread_of_ofText hn⟩

theorem exists_wireName {s : Bytes} (hlast : (segments path).getLast? = some s)
    (hup : s ≠ [0x2E, 0x2E]) (hlength : s.length ≤ 254) (hp : ∀ b ∈ s, Name.IsPrintableByte b) :
    ∃ n, wireName path = .ok n := by
  obtain ⟨cs, rfl, -⟩ := Name.exists_encode_of_isPrintableByte hp
  have hbytes : Name.bytes ⟨String.ofList cs⟩ = Text.Utf8.encode cs := by
    rw [Name.bytes, Text.Utf8.bytes, String.toList_ofList]
  exact ⟨_, wireName_eq_ok_iff.mpr ⟨_, fileName?_eq_some_iff.mpr ⟨hlast, hup⟩,
    Name.exists_ofText_iff.mpr ⟨hlength, hp, hbytes⟩⟩⟩

end WireName

/-- The file name of a path is its last component, if that has a name. It goes on the wire just if it
is one to 254 bytes of printable ASCII, and goes as it is; so no name is empty, leads to another
directory or holds a slash, and its own field keeps it. Slashes and dots after a path change nothing. -/
theorem wireName_is_last_segment (path : Bytes) :
    let parts := (path.splitOn 0x2F).filter fun s => s ≠ [] ∧ s ≠ [0x2E]
    fileName? path = (components path).getLast?.bind Component.name? ∧
    ((∃ n, wireName path = .ok n) ↔ ∃ s, parts.getLast? = some s ∧ s ≠ [0x2E, 0x2E] ∧
      1 ≤ s.length ∧ s.length ≤ 254 ∧ ∀ b ∈ s, 0x20 ≤ b ∧ b ≤ 0x7E) ∧
    (∀ n, wireName path = .ok n → parts.getLast? = some n.bytes ∧
      n.bytes ≠ [] ∧ n.bytes ≠ [0x2E] ∧ n.bytes ≠ [0x2E, 0x2E] ∧ 0x2F ∉ n.bytes ∧
      Name.ofWire n.toWire = n) ∧
    ∀ tail, IsTrail tail → wireName (path ++ tail) = wireName path := by
  intro parts
  have hparts : segments path = parts := segments_eq path
  refine ⟨fileName?_eq path, ⟨?_, ?_⟩, ?_, fun tail h => ?_⟩
  · rintro ⟨n, h⟩
    obtain ⟨hlast, hup, hlength, hp, -⟩ := segment_of_wireName h
    obtain ⟨-, hne, -⟩ := mem_segments_iff.mp (List.mem_of_getLast? hlast)
    exact ⟨n.bytes, hparts ▸ hlast, hup, List.length_pos_iff.mpr hne, hlength, hp⟩
  · rintro ⟨s, hlast, hup, -, hlength, hp⟩
    exact exists_wireName (hparts ▸ hlast) hup hlength hp
  · intro n h
    obtain ⟨hlast, hup, -, -, hkept⟩ := segment_of_wireName h
    obtain ⟨hsplit, hne, hdot⟩ := mem_segments_iff.mp (List.mem_of_getLast? hlast)
    exact ⟨hparts ▸ hlast, hne, hdot, hup, slash_notMem_of_mem_split hsplit, hkept⟩
  · exact wireName_congr (segments_append_trail h path)

/-- The path `./a//b.txt`, with `/./` after it or not. -/
theorem wireName_is_last_segment_trailing :
    let path : Bytes := [0x2E, 0x2F, 0x61, 0x2F, 0x2F, 0x62, 0x2E, 0x74, 0x78, 0x74]
    let tail : Bytes := [0x2F, 0x2E, 0x2F]
    wireName path = .ok ⟨"b.txt"⟩ ∧ Name.ofWire (Name.toWire ⟨"b.txt"⟩) = ⟨"b.txt"⟩ ∧
    IsTrail tail ∧ wireName (path ++ tail) = .ok ⟨"b.txt"⟩ := by
  intro path tail
  have hname : wireName path = .ok ⟨"b.txt"⟩ := rfl
  have htail : IsTrail tail := .dot (.slash .nil)
  obtain ⟨-, -, hwire, happend⟩ := wireName_is_last_segment path
  obtain ⟨-, -, -, -, -, hkept⟩ := hwire _ hname
  exact ⟨hname, hkept, htail, (happend tail htail).trans hname⟩

end Path

end Courier
