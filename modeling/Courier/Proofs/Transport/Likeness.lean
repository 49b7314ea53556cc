import Courier.Client.RoundTrip
import Courier.Proofs.Transport.Coupling
import Courier.Proofs.Transport.Gathering
import Courier.Proofs.Wire.Informational
import Mathlib.Data.List.Forall2

namespace Courier

/-- The same thing happens, but for the values of the bytes that arrive. -/
inductive ReadEvent.Alike : ReadEvent → ReadEvent → Prop where
  | data {bytes bytes' : Bytes} : bytes.length = bytes'.length → Alike (.data bytes) (.data bytes')
  | same (e : ReadEvent) : Alike e e

namespace Stream

/-- No byte is lost or made up. -/
theorem fill_bytes (deadline : Option Nat) (now : Nat) (buffer : Bytes) (es : List ReadEvent) :
    (fill deadline now buffer es).buffer ++ incoming (fill deadline now buffer es).reads =
      buffer ++ incoming es := by
  induction es generalizing now buffer with
  | nil => rfl
  | cons e es ih =>
    cases e with
    | data bytes =>
      unfold fill
      split
      · exact List.append_assoc _ _ _
      · rw [ih]
        exact List.append_assoc _ _ _
    | pause ms due =>
      unfold fill
      split
      · exact ih _ buffer
      · rfl
    | ended | fault f | hang => rfl

/-- Reading came as far. -/
structure Filled.Alike (r r' : Filled) : Prop where
  progress_eq : r.progress = r'.progress
  time_eq : r.time = r'.time
  length_eq : r.buffer.length = r'.buffer.length
  reads : List.Forall₂ ReadEvent.Alike r.reads r'.reads

theorem fill_alike (deadline : Option Nat) (now : Nat) {buffer buffer' : Bytes}
    (hb : buffer.length = buffer'.length) {es es' : List ReadEvent}
    (h : List.Forall₂ ReadEvent.Alike es es') :
    (fill deadline now buffer es).Alike (fill deadline now buffer' es') := by
  induction h generalizing now buffer buffer' with
  | nil => exact ⟨rfl, rfl, hb, .nil⟩
  | @cons e _ _ _ he hes ih =>
    cases he with
    | @data bytes bytes' hl =>
      have hb' : (buffer ++ bytes).length = (buffer' ++ bytes').length := by
        rw [List.length_append, List.length_append, hb, hl]
      unfold fill
      rw [hb']
      split
      · exact ⟨rfl, rfl, hb', hes⟩
      · exact ih now hb'
    | same =>
      cases e with
      | data bytes =>
        have hb' : (buffer ++ bytes).length = (buffer' ++ bytes).length := by
          rw [List.length_append, List.length_append, hb]
        unfold fill
        rw [hb']
        split
        · exact ⟨rfl, rfl, hb', hes⟩
        · exact ih now hb'
      | pause ms due =>
        unfold fill
        split
        · exact ih _ hb
        · exact ⟨rfl, rfl, hb, .cons (.same _) hes⟩
      | ended => exact ⟨rfl, rfl, hb, hes⟩
      | fault f => exact ⟨rfl, rfl, hb, hes⟩
      | hang => exact ⟨rfl, rfl, hb, .cons (.same _) hes⟩

/-- The streams bring as many bytes at the same times, take the same, and end the same way; and the
responses on them differ in no more than what is there for information only. -/
structure Alike (s t : Stream) : Prop where
  eq : t = { s with reads := t.reads }
  reads : List.Forall₂ ReadEvent.Alike s.reads t.reads
  bytes : Response.Alike (incoming s.reads) (incoming t.reads)

end Stream

namespace Connection

open Courier.Action

/-- The connections differ in no more than the values of bytes that came or are yet to come, and what
is reported for information only. `B` tells how the bytes are related that are not in a message yet. -/
inductive Alike (B : Bytes → Bytes → Prop) (k : Connection) : Connection → Prop where
  | mk {reads : List ReadEvent} {inbound : Bytes} {log : List Event} :
    List.Forall₂ ReadEvent.Alike k.stream.reads reads → k.inbound.length = inbound.length →
      k.log.filterMap Event.essence? = log.filterMap Event.essence? →
        B (k.inbound ++ Stream.incoming k.stream.reads) (inbound ++ Stream.incoming reads) →
          Alike B k { k with stream := { k.stream with reads }, inbound, log }

/-- They differ in no more than that, whatever the bytes are. -/
abbrev Similar : Connection → Connection → Prop :=
  Alike fun _ _ => True

variable {B : Bytes → Bytes → Prop} {k l : Connection}

theorem Alike.similar (h : Alike B k l) : Similar k l := by
  cases h with
  | mk hreads hinbound hlog _ => exact .mk hreads hinbound hlog trivial

theorem Alike.sent_eq (h : Alike B k l) : k.stream.sent = l.stream.sent := by
  cases h
  rfl

theorem Alike.imp {B' : Bytes → Bytes → Prop} (h : Alike B k l) (hB : ∀ s t, B s t → B' s t) :
    Alike B' k l := by
  cases h with
  | mk hreads hinbound hlog hbytes => exact .mk hreads hinbound hlog (hB _ _ hbytes)

theorem Alike.bytes (h : Alike B k l) : ∃ s t, B s t := by
  cases h with
  | mk _ _ _ hbytes => exact ⟨_, _, hbytes⟩

section Sending

theorem writeOut_keeps (deadline : Option Nat) (enough : Nat) :
    Keeps (Alike B) Eq (writeOut deadline enough) (writeOut deadline enough) := by
  intro k l h
  cases h with
  | mk hreads hinbound hlog hbytes =>
    unfold writeOut
    simp only
    generalize Stream.drain deadline enough k.clock k.outbound k.stream.writes = d
    cases d.progress with
    | done => exact .ok ⟨rfl, .mk hreads hinbound hlog hbytes⟩
    | short => exact .ok ⟨rfl, .mk hreads hinbound hlog hbytes⟩
    | fault f => exact .error (.mk hreads hinbound hlog hbytes)
    | expired => exact .error (.mk hreads hinbound hlog hbytes)
    | hung => exact .error (.mk hreads hinbound hlog hbytes)

theorem settle_keeps (deadline : Option Nat) (s : Settle) :
    Keeps (Alike B) Eq (settle deadline s) (settle deadline s) := by
  intro k l h
  cases h with
  | mk hreads hinbound hlog hbytes =>
    unfold settle
    cases s with
    | done => exact .ok ⟨rfl, .mk hreads hinbound hlog hbytes⟩
    | fault f => exact .error (.mk hreads hinbound hlog hbytes)
    | hang =>
      cases deadline with
      | some d => exact .error (.mk hreads hinbound hlog hbytes)
      | none => exact .error (.mk hreads hinbound hlog hbytes)

theorem due_alike {es es' : List ReadEvent} (h : List.Forall₂ ReadEvent.Alike es es') :
    es.head?.bind (·.due?) = es'.head?.bind (·.due?) := by
  cases h with
  | nil => rfl
  | cons he _ =>
    cases he with
    | data hl => rfl
    | same e => rfl

theorem await_keeps (deadline : Nat) : Keeps (Alike B) Eq (await deadline) (await deadline) := by
  intro k l h
  cases h with
  | @mk reads inbound log hreads hinbound hlog hbytes =>
    have hdue : ({ k.stream with reads } : Stream).nextDue k.clock deadline =
        k.stream.nextDue k.clock deadline := by
      unfold Stream.nextDue
      rw [due_alike hreads]
    unfold await
    dsimp only
    rw [hdue]
    split
    · exact .error (.mk hreads hinbound hlog hbytes)
    · exact .ok ⟨rfl, .mk hreads hinbound hlog hbytes⟩

theorem alike_writes : Writes (Alike B) where
  writeOut := writeOut_keeps
  settle := settle_keeps
  await := await_keeps
  length_outbound k l h := by
    cases h
    rfl
  onFlush_eq k l h := by
    cases h
    rfl
  onShutdown_eq k l h := by
    cases h
    rfl
  shutdown k l h := by
    cases h with
    | mk hreads hinbound hlog hbytes => exact .mk hreads hinbound hlog hbytes

theorem feed_keeps (deadline : Nat) (chunk : Bytes) :
    Keeps (Alike B) Eq (feed deadline chunk) (feed deadline chunk) := by
  refine (alike_writes.makeRoom deadline).bind_eq fun _ => keeps_modify fun k l h => ?_
  cases h with
  | mk hreads hinbound hlog hbytes => exact .mk hreads hinbound hlog hbytes

theorem send_keeps (message : Bytes) : Keeps (Alike B) Eq (send message) (send message) := by
  unfold send
  split
  · exact keeps_pure rfl
  refine keeps_get_bind fun k l h => ?_
  have hdeadline : k.clock + k.timeouts.send = l.clock + l.timeouts.send := by cases h; rfl
  simp only [hdeadline]
  refine (keeps_forM (feed_keeps _) _).bind_eq fun _ => ?_
  refine (alike_writes.flush _).bind_eq fun _ => keeps_modify fun k l h => ?_
  cases h with
  | mk hreads hinbound hlog hbytes => exact .mk hreads hinbound hlog hbytes

end Sending

section Receiving

/-- The next frame is taken off what is there to be read. -/
theorem nextFrame_couples (deadline : Option Nat) :
    Couples (Alike B) (nextFrame deadline) (nextFrame deadline)
      (fun frame frame' k l => frame.length = frame'.length ∧
        Alike (fun s t => B (frame ++ s) (frame' ++ t)) k l) Similar := by
  intro k l h
  cases h with
  | @mk reads inbound log hreads hinbound hlog hbytes =>
    unfold nextFrame
    simp only [← hinbound]
    split
    · exact .error (.mk hreads hinbound hlog trivial)
    split
    · refine .ok ⟨by simp [hinbound], .mk hreads (by simp [hinbound]) hlog ?_⟩
      rwa [← List.append_assoc, List.take_append_drop, ← List.append_assoc,
        List.take_append_drop]
    -- Reading only moves bytes into the buffer, so what relates all bytes to come carries over.
    have hfill := Stream.fill_alike deadline k.clock hinbound hreads
    have hs := Stream.fill_bytes deadline k.clock k.inbound k.stream.reads
    have ht := Stream.fill_bytes deadline k.clock inbound reads
    rw [← hs, ← ht] at hbytes
    clear hs ht
    generalize Stream.fill deadline k.clock k.inbound k.stream.reads = r at hfill hbytes
    generalize Stream.fill deadline k.clock inbound reads = r' at hfill hbytes
    obtain ⟨progress, time, buffer, rest⟩ := r
    obtain ⟨progress', time', buffer', rest'⟩ := r'
    obtain ⟨rfl, rfl, hl, hrest⟩ := hfill
    simp only at hl hrest hbytes ⊢
    cases progress with
    | done =>
      refine .ok ⟨by simp [hl], .mk hrest (by simp [hl]) hlog ?_⟩
      rwa [← List.append_assoc, List.take_append_drop, ← List.append_assoc,
        List.take_append_drop]
    | short =>
      have hnil : buffer = [] ↔ buffer' = [] := by
        rw [← List.length_eq_zero_iff, ← List.length_eq_zero_iff, hl]
      simp only [hnil]
      split
      · exact .error (.mk hrest hl hlog trivial)
      · exact .ok ⟨hl, .mk hrest rfl hlog hbytes⟩
    | fault f => exact .error (.mk hrest hl hlog trivial)
    | expired => exact .error (.mk hrest hl hlog trivial)
    | hung => exact .error (.mk hrest hl hlog trivial)

/-- As much is collected, and what is left goes with it as before. -/
theorem collect_couples (deadline : Option Nat) (wanted most : Nat) (data data' : Bytes)
    (hl : data.length = data'.length) (frames : Nat) :
    Couples (Alike fun s t => B (data ++ s) (data' ++ t)) (collect deadline wanted most data frames)
      (collect deadline wanted most data' frames)
      (fun r r' k l => r.2 = r'.2 ∧ r.1.length = r'.1.length ∧
        Alike (fun s t => B (r.1 ++ s) (r'.1 ++ t)) k l) Similar := by
  induction most generalizing data data' frames with
  | zero => exact couples_pure fun _ _ h => ⟨rfl, hl, h⟩
  | succ most ih =>
    unfold collect
    rw [hl]
    split
    · exact couples_pure fun _ _ h => ⟨rfl, hl, h⟩
    · refine (nextFrame_couples deadline).bind fun frame frame' k l h => ?_
      refine ih _ _ (by rw [List.length_append, List.length_append, hl, h.1]) _ k l ?_
      refine h.2.imp fun s t hst => ?_
      rw [List.append_assoc, List.append_assoc]
      exact hst

/-- Responses alike are received alike, if what is announced does not tell them apart. -/
theorem receiveAnnounced_couples (head : Nat)
    {announced : Bytes → List Event × Except TransferError Nat}
    (ha : ∀ s t, Response.Alike s t → (announced s).2 = (announced t).2 ∧
      (announced s).1.filterMap Event.essence? = (announced t).1.filterMap Event.essence?) :
    Couples (Alike Response.Alike) (receiveAnnounced head announced)
      (receiveAnnounced head announced)
      (fun message message' k l => Response.Alike message message' ∧ Similar k l) Similar := by
  refine couples_get_bind fun k l h => ?_
  have hdeadline : k.clock + k.timeouts.receive = l.clock + l.timeouts.receive := by cases h; rfl
  simp only [hdeadline]
  refine (collect_couples _ head head [] [] rfl 0).bind ?_
  rintro ⟨data, frames⟩ ⟨data', frames'⟩
  -- What was collected no longer changes: how it is related holds in all states from here on.
  refine couples_of_forall (p := frames = frames' ∧ data.length = data'.length ∧
    Response.Alike data data') (fun k l h => ⟨h.1, h.2.1, ?_⟩) fun ⟨hframes, hl, hdata⟩ => ?_
  · obtain ⟨s, t, hst⟩ := h.2.2.bytes
    exact hst.left h.2.1
  obtain ⟨htotal, hevents⟩ := ha _ _ (hdata.take head)
  subst hframes
  simp only [htotal]
  refine Couples.bind (V := fun _ _ => Alike fun s t => Response.Alike (data ++ s) (data' ++ t))
    (couples_modify fun k l h => ?_) fun _ _ => ?_
  · cases h.2.2 with
    | mk hreads hinbound hlog hbytes =>
      refine .mk hreads hinbound ?_ hbytes
      rw [List.filterMap_append, List.filterMap_append, hlog, hevents]
  refine (couples_same _ fun _ _ h => h.similar).bind fun total total' => ?_
  refine couples_of_forall (p := total = total') (fun _ _ h => h.1) fun htotals => ?_
  subst htotals
  refine ((collect_couples _ total total data data' hl frames).imp (fun _ _ h => h.2) (fun _ _ _ _ h => h)
    fun _ _ h => h).bind ?_
  rintro ⟨message, count⟩ ⟨message', count'⟩
  refine couples_of_forall (p := count = count' ∧ Response.Alike message message')
    (fun k l h => ⟨h.1, ?_⟩) fun ⟨hcount, hmessage⟩ => ?_
  · obtain ⟨s, t, hst⟩ := h.2.2.bytes
    exact hst.left h.2.1
  subst hcount
  refine Couples.bind (V := fun _ _ => Similar) (couples_modify fun k l h => ?_) fun _ _ => ?_
  · cases h.2.2 with
    | mk hreads hinbound hlog hbytes => exact .mk hreads hinbound hlog trivial
  exact couples_pure fun _ _ h => ⟨hmessage.take total, h⟩

/-- What comes of a request differs in no more than what the response has for information only. -/
theorem ask_couples (request : Request) (expected : ResponseCode) :
    Couples (Alike Response.Alike) (ask request expected) (ask request expected)
      (fun p p' k l => p.Alike p' ∧ Similar k l) Similar := by
  refine (couples_same _ fun _ _ h => h.similar).bind fun message message' => ?_
  refine couples_of_forall (p := message = message') (fun _ _ h => h.1) fun hmessages => ?_
  subst hmessages
  refine ((send_keeps message).imp (fun _ _ h => h.2) (fun _ _ _ _ h => h.2)
    fun _ _ h => h.similar).bind fun _ _ => ?_
  refine (receiveAnnounced_couples _ fun s t hst => ?_).bind fun received received' => ?_
  · obtain ⟨htotal, hs, ht⟩ := ResponseHeader.announced_alike hst expected
    exact ⟨htotal, hs.trans ht.symm⟩
  refine Couples.bind (V := fun r r' k l => r.payload.Alike r'.payload ∧ Similar k l)
    (couples_ofExcept fun k l h => ?_) fun response response' => ?_
  · have hdecode := h.1.decode
    generalize Response.decode received = x at hdecode
    generalize Response.decode received' = y at hdecode
    cases hdecode with
    | ok hp => exact .inl ⟨_, _, rfl, rfl, hp, h.2⟩
    | error => exact .inr ⟨_, rfl, rfl, h.2⟩
  refine couples_of_forall (p := response.payload.Alike response'.payload) (fun _ _ h => h.1)
    fun hp => ?_
  refine (alike_writes.close.attempt.imp (fun _ _ h => h.2) (fun _ _ _ _ h => h.2)
    fun _ _ h => h).bind fun _ _ => ?_
  exact couples_pure fun _ _ h => ⟨hp, h⟩

theorem tell_keeps (request : Request) : Keeps (Alike B) Eq (tell request) (tell request) :=
  (keeps_same _).bind_eq fun message => (send_keeps message).bind_eq fun _ => alike_writes.close

end Receiving

end Connection

end Courier
