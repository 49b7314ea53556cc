import Courier.Client.RoundTrip
import Courier.Proofs.Transport.Coupling
import Courier.Proofs.Transport.Passing
import Mathlib.Data.List.Forall2

namespace Courier

open Courier.Action

namespace Request

/-- The same request, but for a key or for a content of the same length. -/
inductive Veiled : Request → Request → Prop where
  | sendPublicKey (id : ClientId) (name : Name) (key key' : PublicKey) :
    Veiled (.sendPublicKey id name key) (.sendPublicKey id name key')
  | sendFile (id : ClientId) (file : Name) {content content' : Bytes} :
    content.length = content'.length → Veiled (.sendFile id file content) (.sendFile id file content')
  | same (r : Request) : Veiled r r

variable {r r' : Request}

/-- The kind of a request, the identity in it and the name are never veiled. -/
theorem Veiled.head_eq (h : r.Veiled r') : (r.code, r.id, r.name) = (r'.code, r'.id, r'.name) := by
  cases h <;> rfl

theorem Veiled.payloadSize_eq (h : r.Veiled r') : r.payloadSize = r'.payloadSize := by
  cases h with
  | sendPublicKey | same => rfl
  | sendFile id file hl => simp only [payloadSize, hl]

theorem Veiled.header_eq (h : r.Veiled r') : r.header = r'.header := by
  have hsize := h.payloadSize_eq
  unfold header
  cases h with
  | sendPublicKey | same => rfl
  | sendFile _ file hl => simp only [hsize, contentSize, hl, Request.id, code]

/-- Veiled requests are encoded in as many bytes, or not at all. -/
theorem Veiled.encode (h : r.Veiled r') :
    Replies (fun message message' => message.length = message'.length) r.encode r'.encode := by
  unfold Request.encode
  rw [h.header_eq]
  cases r'.header with
  | error e => exact .error
  | ok header =>
    refine .ok ?_
    rw [List.length_append, List.length_append, length_payload, length_payload, h.payloadSize_eq]

/-- What goes over a stream for a request: nothing if it cannot be encoded. -/
def frames (r : Request) : Bytes :=
  match r.encode with
  | .ok message => Frame.wire message
  | .error _ => []

end Request

namespace Stream

theorem drain_kept (deadline : Option Nat) (enough now : Nat) (buffer : Bytes)
    (es : List WriteEvent) :
    (drain deadline enough now buffer es).sent ++ (drain deadline enough now buffer es).buffer =
      buffer := by
  induction es generalizing now buffer with
  | nil => exact List.append_nil _
  | cons e es ih =>
    unfold drain
    split
    · simp [*]
    cases e with
    | accept n =>
      simp only
      split
      · exact List.append_nil _
      · simp only [List.append_assoc, ih, List.take_append_drop]
    | refuse => rfl
    | fault f => rfl
    | hang =>
      simp only
      split <;> rfl
    | pause ms due =>
      simp only
      split
      · rfl
      split
      · exact ih _ buffer
      · rfl

/-- Writing came as far, with as many bytes. -/
structure Drained.Alike (d d' : Drained) : Prop where
  progress_eq : d.progress = d'.progress
  time_eq : d.time = d'.time
  writes_eq : d.writes = d'.writes
  length_sent : d.sent.length = d'.sent.length
  length_buffer : d.buffer.length = d'.buffer.length

theorem drain_alike (deadline : Option Nat) (enough now : Nat) {buffer buffer' : Bytes}
    (hb : buffer.length = buffer'.length) (es : List WriteEvent) :
    (drain deadline enough now buffer es).Alike (drain deadline enough now buffer' es) := by
  induction es generalizing now buffer buffer' with
  | nil => exact ⟨rfl, rfl, rfl, hb, rfl⟩
  | cons e es ih =>
    have hnil : buffer = [] ↔ buffer' = [] := by
      rw [← List.length_eq_zero_iff, ← List.length_eq_zero_iff, hb]
    unfold drain
    simp only [hnil, hb]
    split
    · exact ⟨rfl, rfl, rfl, rfl, rfl⟩
    cases e with
    | accept n =>
      simp only
      split
      · exact ⟨rfl, rfl, rfl, hb, rfl⟩
      · have hdrop : (buffer.drop n).length = (buffer'.drop n).length := by simp [hb]
        obtain ⟨hprogress, htime, hwrites, hsent, hbuffer⟩ := ih now hdrop
        exact ⟨hprogress, htime, hwrites, by simp [hb, hsent], hbuffer⟩
    | refuse => exact ⟨rfl, rfl, rfl, rfl, hb⟩
    | fault f => exact ⟨rfl, rfl, rfl, rfl, hb⟩
    | hang =>
      simp only
      split
      · exact ⟨rfl, rfl, rfl, rfl, hb⟩
      · exact ⟨rfl, rfl, rfl, rfl, hb⟩
    | pause ms due =>
      simp only
      split
      · exact ⟨rfl, rfl, rfl, rfl, hb⟩
      split
      · exact ih _ hb
      · exact ⟨rfl, rfl, rfl, rfl, hb⟩

end Stream

namespace Connection

/-- The connections differ in no more than the bytes on their way out, of which there are as many.
Altogether `posted` and `posted'` are gone or still to go. -/
inductive Veiled (posted posted' : Bytes) (k : Connection) : Connection → Prop where
  | mk {sent outbound : Bytes} :
    k.stream.sent.length = sent.length → k.outbound.length = outbound.length →
      k.posted = posted → sent ++ outbound = posted' →
        Veiled posted posted' k { k with stream := { k.stream with sent }, outbound }

/-- They differ in no more than that, and only the first bytes of `whole` and `whole'` are posted. -/
def VeiledWithin (whole whole' : Bytes) (k l : Connection) : Prop :=
  ∃ posted posted', posted <+: whole ∧ posted' <+: whole' ∧ Veiled posted posted' k l

variable {p p' : Bytes} {k l : Connection}

theorem veiled_self (k : Connection) : Veiled k.posted k.posted k k :=
  .mk rfl rfl rfl rfl

theorem Veiled.within (h : Veiled p p' k l) (q q' : Bytes) :
    VeiledWithin (p ++ q) (p' ++ q') k l :=
  ⟨p, p', List.prefix_append _ _, List.prefix_append _ _, h⟩

theorem Veiled.whole (h : Veiled p p' k l) : VeiledWithin p p' k l :=
  ⟨p, p', List.prefix_refl _, List.prefix_refl _, h⟩

/-- Of either message as many bytes are out. -/
theorem VeiledWithin.sent {whole whole' : Bytes} (h : VeiledWithin whole whole' k l) :
    ∃ n, k.stream.sent = whole.take n ∧ l.stream.sent = whole'.take n := by
  obtain ⟨_, _, hp, hp', hveiled⟩ := h
  cases hveiled with
  | @mk sent outbound hsent _ hk hl =>
    refine ⟨sent.length, ?_, ?_⟩
    · rw [← hsent]
      have hprefix : k.stream.sent <+: whole := (List.prefix_append _ _).trans (hk ▸ hp)
      exact (List.prefix_iff_eq_take.mp hprefix)
    · have hprefix : sent <+: whole' := (List.prefix_append _ _).trans (hl ▸ hp')
      exact (List.prefix_iff_eq_take.mp hprefix)

/-- A step that posts nothing more. -/
theorem keeps_within {α : Type} {x y : Action Connection α} (h : Keeps (Veiled p p') Eq x y) :
    Couples (Veiled p p') x y (fun a b k l => a = b ∧ Veiled p p' k l) (VeiledWithin p p') :=
  h.imp (fun _ _ h => h) (fun _ _ _ _ h => h) fun _ _ h => h.whole

section Sending

theorem writeOut_veiled (deadline : Option Nat) (enough : Nat) :
    Keeps (Veiled p p') Eq (writeOut deadline enough) (writeOut deadline enough) := by
  intro k l h
  cases h with
  | @mk sent outbound hsent houtbound hk hl =>
    have halike := Stream.drain_alike deadline enough k.clock houtbound k.stream.writes
    have hd := Stream.drain_kept deadline enough k.clock k.outbound k.stream.writes
    have hd' := Stream.drain_kept deadline enough k.clock outbound k.stream.writes
    unfold writeOut
    simp only
    generalize Stream.drain deadline enough k.clock k.outbound k.stream.writes = d at halike hd
    generalize Stream.drain deadline enough k.clock outbound k.stream.writes = d' at halike hd'
    obtain ⟨progress, time, out, buffer, writes⟩ := d
    obtain ⟨progress', time', out', buffer', writes'⟩ := d'
    obtain ⟨rfl, rfl, rfl, hout, hbuffer⟩ := halike
    simp only at hd hd' hout hbuffer ⊢
    have hveiled : Veiled p p'
        { k with
          clock := time
          outbound := buffer
          stream := { k.stream with writes, sent := k.stream.sent ++ out } }
        { k with
          clock := time
          outbound := buffer'
          stream := { k.stream with writes, sent := sent ++ out' } } := by
      refine .mk (by simp [hsent, hout]) hbuffer ?_ ?_
      · rw [← hk, posted, posted, List.append_assoc, hd]
      · rw [← hl, List.append_assoc, hd']
    cases progress with
    | done => exact .ok ⟨rfl, hveiled⟩
    | short => exact .ok ⟨rfl, hveiled⟩
    | fault f => exact .error hveiled
    | expired => exact .error hveiled
    | hung => exact .error hveiled

theorem settle_veiled (deadline : Option Nat) (s : Settle) :
    Keeps (Veiled p p') Eq (settle deadline s) (settle deadline s) := by
  intro k l h
  cases h with
  | mk hsent houtbound hk hl =>
    unfold settle
    cases s with
    | done => exact .ok ⟨rfl, .mk hsent houtbound hk hl⟩
    | fault f => exact .error (.mk hsent houtbound hk hl)
    | hang =>
      cases deadline with
      | some d => exact .error (.mk hsent houtbound hk hl)
      | none => exact .error (.mk hsent houtbound hk hl)

theorem await_veiled (deadline : Nat) :
    Keeps (Veiled p p') Eq (await deadline) (await deadline) := by
  intro k l h
  cases h with
  | @mk sent outbound hsent houtbound hk hl =>
    have hdue : ({ k.stream with sent } : Stream).nextDue k.clock deadline =
        k.stream.nextDue k.clock deadline := rfl
    unfold await
    dsimp only
    rw [hdue]
    split
    · exact .error (.mk hsent houtbound hk hl)
    · exact .ok ⟨rfl, .mk hsent houtbound hk hl⟩

theorem veiled_writes : Writes (Veiled p p') where
  writeOut := writeOut_veiled
  settle := settle_veiled
  await := await_veiled
  length_outbound k l h := by
    cases h with
    | mk _ houtbound => exact houtbound
  onFlush_eq k l h := by
    cases h
    rfl
  onShutdown_eq k l h := by
    cases h
    rfl
  shutdown k l h := by
    cases h with
    | mk hsent houtbound hk hl => exact .mk hsent houtbound hk hl

/-- Chunks of one length are buffered in the same way. -/
theorem feed_veiled (deadline : Nat) {chunk chunk' : Bytes} (hc : chunk.length = chunk'.length) :
    Couples (Veiled p p') (feed deadline chunk) (feed deadline chunk')
      (fun _ _ => Veiled (p ++ Frame.pad chunk) (p' ++ Frame.pad chunk')) (Veiled p p') := by
  refine Couples.bind (veiled_writes.makeRoom deadline) fun _ _ => couples_modify fun k l h => ?_
  cases h.2 with
  | mk hsent houtbound hk hl =>
    refine .mk hsent ?_ ?_ ?_
    · simp [Frame.pad, Bytes.padTo, houtbound, hc]
    · rw [← hk, posted, posted, List.append_assoc]
    · rw [← hl, List.append_assoc]

theorem feeds_veiled (deadline : Nat) {chunks chunks' : List Bytes}
    (hc : List.Forall₂ (fun chunk chunk' => chunk.length = chunk'.length) chunks chunks') :
    Couples (Veiled p p') (chunks.forM (feed deadline)) (chunks'.forM (feed deadline))
      (fun _ _ => Veiled (p ++ chunks.flatMap Frame.pad) (p' ++ chunks'.flatMap Frame.pad))
      (VeiledWithin (p ++ chunks.flatMap Frame.pad) (p' ++ chunks'.flatMap Frame.pad)) := by
  induction hc generalizing p p' with
  | nil => exact couples_pure fun k l h => by simpa using h
  | @cons chunk chunk' rest rest' hl _ ih =>
    simp only [List.flatMap_cons, ← List.append_assoc]
    refine Couples.bind ?_ fun _ _ => ih
    refine (feed_veiled deadline hl).imp (fun _ _ h => h) (fun _ _ _ _ h => h) fun k l h => ?_
    rw [List.append_assoc, List.append_assoc]
    exact h.within _ _

theorem cut_alike (n : Nat) {message message' : Bytes} (hm : message.length = message'.length) :
    List.Forall₂ (fun chunk chunk' => chunk.length = chunk'.length) (Frame.cut n message)
      (Frame.cut n message') := by
  induction n generalizing message message' with
  | zero => exact .nil
  | succ n ih => exact .cons (by simp [hm]) (ih (by simp [hm]))

/-- Messages of one length are sent in the same way. -/
theorem send_veiled {message message' : Bytes} (hm : message.length = message'.length) :
    Couples (Veiled p p') (send message) (send message')
      (fun _ _ => Veiled (p ++ Frame.wire message) (p' ++ Frame.wire message'))
      (VeiledWithin (p ++ Frame.wire message) (p' ++ Frame.wire message')) := by
  by_cases hnil : message = []
  · have hnil' : message' = [] := by
      rw [← List.length_eq_zero_iff, ← hm, hnil]
      rfl
    subst hnil hnil'
    exact couples_pure fun k l h => by simpa [Frame.wire, Frame.count, Frame.size] using h
  have hnil' : message' ≠ [] := by
    rintro rfl
    exact hnil (List.length_eq_zero_iff.mp hm)
  unfold send
  rw [if_neg hnil, if_neg hnil']
  refine couples_get_bind fun k l h => ?_
  have hdeadline : k.clock + k.timeouts.send = l.clock + l.timeouts.send := by cases h; rfl
  have hchunks : List.Forall₂ (fun chunk chunk' => chunk.length = chunk'.length)
      (Frame.chunks message) (Frame.chunks message') := by
    unfold Frame.chunks
    rw [hm]
    exact cut_alike _ hm
  have hfeeds : Couples (Veiled p p') _ _ _ _ := feeds_veiled (l.clock + l.timeouts.send) hchunks
  rw [Frame.flatMap_pad_chunks, Frame.flatMap_pad_chunks] at hfeeds
  simp only [hdeadline, hm]
  refine hfeeds.bind fun _ _ => Couples.bind (keeps_within (veiled_writes.flush _)) fun _ _ => ?_
  refine couples_modify fun k l h => ?_
  cases h.2 with
  | mk hsent houtbound hk hl => exact .mk hsent houtbound hk hl

end Sending

section Receiving

theorem nextFrame_veiled (deadline : Option Nat) :
    Keeps (Veiled p p') Eq (nextFrame deadline) (nextFrame deadline) := by
  intro k l h
  cases h with
  | @mk sent outbound hsent houtbound hk hl =>
    unfold nextFrame
    simp only
    split
    · exact .error (.mk hsent houtbound hk hl)
    split
    · exact .ok ⟨rfl, .mk hsent houtbound hk hl⟩
    generalize Stream.fill deadline k.clock k.inbound k.stream.reads = r
    cases r.progress with
    | done => exact .ok ⟨rfl, .mk hsent houtbound hk hl⟩
    | short =>
      simp only
      split
      · exact .error (.mk hsent houtbound hk hl)
      · exact .ok ⟨rfl, .mk hsent houtbound hk hl⟩
    | fault f => exact .error (.mk hsent houtbound hk hl)
    | expired => exact .error (.mk hsent houtbound hk hl)
    | hung => exact .error (.mk hsent houtbound hk hl)

theorem collect_veiled (deadline : Option Nat) (wanted most : Nat) (data : Bytes) (frames : Nat) :
    Keeps (Veiled p p') Eq (collect deadline wanted most data frames)
      (collect deadline wanted most data frames) := by
  induction most generalizing data frames with
  | zero => exact keeps_pure rfl
  | succ most ih =>
    unfold collect
    split
    · exact keeps_pure rfl
    · exact (nextFrame_veiled deadline).bind_eq fun frame => ih _ _

/-- What is received has nothing to do with what was sent. -/
theorem receiveAnnounced_veiled (head : Nat)
    (announced : Bytes → List Event × Except TransferError Nat) :
    Keeps (Veiled p p') Eq (receiveAnnounced head announced) (receiveAnnounced head announced) := by
  refine keeps_get_bind fun k l h => ?_
  have hdeadline : k.clock + k.timeouts.receive = l.clock + l.timeouts.receive := by cases h; rfl
  simp only [hdeadline]
  refine (collect_veiled _ head head [] 0).bind_eq ?_
  rintro ⟨data, frames⟩
  refine Keeps.bind_eq (keeps_modify fun k l h => ?_) fun _ => (keeps_same _).bind_eq fun total => ?_
  · cases h with
    | mk hsent houtbound hk hl => exact .mk hsent houtbound hk hl
  refine (collect_veiled _ total total data frames).bind_eq ?_
  rintro ⟨message, count⟩
  refine Keeps.bind_eq (keeps_modify fun k l h => ?_) fun _ => keeps_pure rfl
  cases h with
  | mk hsent houtbound hk hl => exact .mk hsent houtbound hk hl

end Receiving

section Conversations

variable {r r' : Request}

/-- What is said after a request does not tell what is veiled in it. -/
theorem conversation_veiled (h : r.Veiled r') {α : Type} {x : Action Connection α}
    (hx : ∀ p p', Keeps (Veiled p p') Eq x x) :
    Couples (Veiled p p') (ofExcept r.encode >>= fun message => send message >>= fun _ => x)
      (ofExcept r'.encode >>= fun message => send message >>= fun _ => x)
      (fun a b k l => a = b ∧ VeiledWithin (p ++ r.frames) (p' ++ r'.frames) k l)
      (VeiledWithin (p ++ r.frames) (p' ++ r'.frames)) := by
  have hencode := h.encode
  unfold Request.frames
  generalize r.encode = y at hencode
  generalize r'.encode = y' at hencode
  cases hencode with
  | error => exact couples_fail fun k l h => h.within _ _
  | @ok message message' hm =>
    change Couples _ (send message >>= fun _ => x) (send message' >>= fun _ => x) _ _
    refine Couples.bind (send_veiled hm) fun _ _ => ?_
    exact (keeps_within (hx _ _)).imp (fun _ _ h => h) (fun _ _ _ _ h => ⟨h.1, h.2.whole⟩)
      fun _ _ h => h

theorem ask_veiled (h : r.Veiled r') (expected : ResponseCode) :
    Couples (Veiled p p') (ask r expected) (ask r' expected)
      (fun a b k l => a = b ∧ VeiledWithin (p ++ r.frames) (p' ++ r'.frames) k l)
      (VeiledWithin (p ++ r.frames) (p' ++ r'.frames)) := by
  refine conversation_veiled h fun p p' => ?_
  refine (receiveAnnounced_veiled _ _).bind_eq fun received => (keeps_same _).bind_eq fun _ => ?_
  exact veiled_writes.close.attempt.bind fun _ _ _ => keeps_pure rfl

theorem tell_veiled (h : r.Veiled r') :
    Couples (Veiled p p') (tell r) (tell r')
      (fun a b k l => a = b ∧ VeiledWithin (p ++ r.frames) (p' ++ r'.frames) k l)
      (VeiledWithin (p ++ r.frames) (p' ++ r'.frames)) :=
  conversation_veiled h fun _ _ => veiled_writes.close

end Conversations

end Connection

end Courier
