import Courier.Proofs.Wire.Reading
import Courier.Wire.Response
import Courier.Wire.Validation

namespace Courier

namespace ResponseHeader

/-- The judgement of a header: the length of the whole response, or why it is refused. -/
def judge (h : ResponseHeader) (expected : ResponseCode) : Except TransferError Nat := do
  h.validate expected
  h.responseLength

theorem announced_of_decode {s : Bytes} {h : ResponseHeader} (hd : decode s = .ok h)
    (expected : ResponseCode) : announced expected s = (h.warnings expected, h.judge expected) := by
  unfold announced judge
  rw [hd]

theorem decode_of_le {s : Bytes} (h : size ≤ s.length) : ∃ hd, decode s = .ok hd := by
  unfold decode
  split
  · exact ⟨_, rfl⟩
  · rename_i hne
    match s, h, hne with
    | v :: c₀ :: c₁ :: s₀ :: s₁ :: s₂ :: s₃ :: rest, _, hne =>
      exact absurd rfl (hne _ _ _ _ _ _ _ _)

theorem le_of_decode {s : Bytes} {hd : ResponseHeader} (h : decode s = .ok hd) :
    size ≤ s.length := by
  unfold decode at h
  split at h
  · simp [size]
  · cases h

/-- A header is in the first seven bytes. -/
theorem decode_take {s : Bytes} {n : Nat} (h : size ≤ n) : decode (s.take n) = decode s := by
  obtain ⟨m, rfl⟩ := Nat.exists_eq_add_of_le' h
  by_cases hs : size ≤ s.length
  · match s, hs with
    | v :: c₀ :: c₁ :: s₀ :: s₁ :: s₂ :: s₃ :: rest, _ => rfl
  · rw [List.take_of_length_le (by omega)]

theorem responseLength_eq_ok {h : ResponseHeader} {total : Nat} :
    h.responseLength = .ok total ↔
      h.payloadSize.toNat ≤ maxPayload ∧ total = size + h.payloadSize.toNat := by
  unfold responseLength
  split
  · simp
    omega
  · simp [eq_comm]
    omega

theorem judge_eq_ok {h : ResponseHeader} {expected : ResponseCode} {total : Nat}
    (hj : h.judge expected = .ok total) :
    h.payloadSize.toNat ≤ maxPayload ∧ total = size + h.payloadSize.toNat := by
  obtain ⟨_, _, hr⟩ := bind_eq_ok.mp hj
  exact responseLength_eq_ok.mp hr

theorem answers_of_judge {h : ResponseHeader} {expected : ResponseCode} {total : Nat}
    (hj : h.judge expected = .ok total) : answers expected h.code := by
  obtain ⟨_, hv, _⟩ := bind_eq_ok.mp hj
  unfold validate at hv
  split at hv
  · cases hv
  split at hv
  · assumption
  · cases hv

end ResponseHeader

namespace ResponsePayload

theorem code_of_decodeAs {code : ResponseCode} {data : Bytes} {p : ResponsePayload}
    (h : decodeAs code data = .ok p) : p.code = code := by
  cases code with
  | registrationFailure => cases h; rfl
  | serverError => cases h; rfl
  | registrationSuccess | messageDelivered | reconnectionDenied | keyExchange
  | reconnectionAccepted =>
    obtain ⟨⟨id, rest⟩, _, h⟩ := bind_eq_ok.mp h
    cases h
    rfl
  | fileDelivered =>
    obtain ⟨_, _, h⟩ := bind_eq_ok.mp h
    obtain ⟨⟨id, rest⟩, _, h⟩ := bind_eq_ok.mp h
    obtain ⟨⟨contentSize, rest⟩, _, h⟩ := bind_eq_ok.mp h
    obtain ⟨⟨file, rest⟩, _, h⟩ := bind_eq_ok.mp h
    obtain ⟨⟨checksum, rest⟩, _, h⟩ := bind_eq_ok.mp h
    cases h
    rfl

theorem code_of_decode {code : UInt16} {data : Bytes} {p : ResponsePayload}
    (h : decode code data = .ok p) : p.code.value = code := by
  unfold decode at h
  split at h
  · cases h
  · rename_i c hc
    rw [code_of_decodeAs h]
    exact ResponseCode.value_of_ofValue? hc

end ResponsePayload

namespace Response

variable {cut : TransferError} {expected : ResponseCode} {s t : Bytes}

/-- Only what the header declares is read. -/
theorem decode_take {h : ResponseHeader} (hd : ResponseHeader.decode s = .ok h)
    (hl : ResponseHeader.size + h.payloadSize.toNat ≤ s.length) :
    decode (s.take (ResponseHeader.size + h.payloadSize.toNat)) = decode s := by
  have hbody : (s.take (ResponseHeader.size + h.payloadSize.toNat)).drop ResponseHeader.size =
      (s.drop ResponseHeader.size).take h.payloadSize.toNat := by
    rw [List.drop_take, Nat.add_sub_cancel_left]
  have hlen : h.payloadSize.toNat ≤ (s.drop ResponseHeader.size).length := by
    rw [List.length_drop]
    omega
  have hlen' : h.payloadSize.toNat ≤
      ((s.drop ResponseHeader.size).take h.payloadSize.toNat).length := by
    rw [List.length_take]
    omega
  unfold decode decodeBody
  rw [ResponseHeader.decode_take (Nat.le_add_right _ _), hd, ok_bind, ok_bind, hbody,
    Wire.ensure_of_le hlen, Wire.ensure_of_le hlen', List.take_take, Nat.min_self]

/-- The answer in the bytes `s` to a request that expects `expected`. If they are cut short, the
cause is `cut`. -/
def answer (cut : TransferError) (expected : ResponseCode) (s : Bytes) :
    Except TransferError ResponsePayload :=
  if s.length < ResponseHeader.size then .error cut
  else do
    let h ← ResponseHeader.decode s
    h.validate expected
    let total ← h.responseLength
    if s.length < total then .error cut
    else (decode s).map (·.payload)

theorem answer_of_short (h : s.length < ResponseHeader.size) :
    answer cut expected s = .error cut := by
  unfold answer
  rw [if_pos h]

theorem answer_of_header {h : ResponseHeader} (hd : ResponseHeader.decode s = .ok h) :
    answer cut expected s = (do
      let total ← h.judge expected
      if s.length < total then .error cut else (decode s).map (·.payload)) := by
  have hs := ResponseHeader.le_of_decode hd
  unfold answer ResponseHeader.judge
  rw [if_neg (by omega), hd, ok_bind]
  cases h.validate expected with
  | error e => rfl
  | ok _ => rfl

/-- Bytes after the declared payload never matter. -/
theorem answer_congr {h : ResponseHeader} (hd : ResponseHeader.decode s = .ok h)
    (ht : t.take (ResponseHeader.size + h.payloadSize.toNat) =
      s.take (ResponseHeader.size + h.payloadSize.toNat)) :
    answer cut expected t = answer cut expected s := by
  have hd' : ResponseHeader.decode t = .ok h := by
    rw [← ResponseHeader.decode_take (Nat.le_add_right _ h.payloadSize.toNat), ht,
      ResponseHeader.decode_take (Nat.le_add_right _ _), hd]
  rw [answer_of_header hd, answer_of_header hd']
  cases hj : h.judge expected with
  | error e => rfl
  | ok total =>
    obtain ⟨-, rfl⟩ := ResponseHeader.judge_eq_ok hj
    have hlen := congrArg List.length ht
    rw [List.length_take, List.length_take] at hlen
    rw [ok_bind, ok_bind]
    by_cases hs : s.length < ResponseHeader.size + h.payloadSize.toNat
    · rw [if_pos hs, if_pos (by omega)]
    · rw [if_neg hs, if_neg (by omega), ← decode_take hd (by omega),
        ← decode_take hd' (by omega), ht]

/-- A payload that is handed on has an expected code. -/
theorem answers_of_answer {p : ResponsePayload} (h : answer cut expected s = .ok p) :
    ResponseHeader.answers expected p.code.value := by
  by_cases hs : s.length < ResponseHeader.size
  · rw [answer_of_short hs] at h
    cases h
  obtain ⟨hd, hdec⟩ := ResponseHeader.decode_of_le (Nat.le_of_not_lt hs)
  rw [answer_of_header hdec] at h
  obtain ⟨total, hj, h⟩ := bind_eq_ok.mp h
  split at h
  · cases h
  cases hr : decode s with
  | error e =>
    rw [hr] at h
    cases h
  | ok r =>
    rw [hr] at h
    cases h
    unfold decode at hr
    rw [hdec, ok_bind] at hr
    obtain ⟨payload, hbody, hr⟩ := bind_eq_ok.mp hr
    obtain ⟨_, _, hbody⟩ := bind_eq_ok.mp hbody
    cases hr
    rw [ResponsePayload.code_of_decode hbody]
    exact ResponseHeader.answers_of_judge hj

end Response

end Courier
