import Courier.Proofs.Transport.Gathering
import Courier.Proofs.Transport.Passing

namespace Courier

namespace Frame

/-- The frames that messages take. -/
def total : List Bytes → Nat
  | [] => 0
  | message :: messages => count message.length + total messages

/-- The bytes of messages, without padding. -/
def bytes : List Bytes → Nat
  | [] => 0
  | message :: messages => message.length + bytes messages

end Frame

namespace Stream

/-- The stream lets messages pass that take up so many bytes on it, one after the other and each
within the time for one. -/
inductive PassesAll (timeout : Nat) : Nat → List WriteEvent → List Nat → Prop where
  | nil {now : Nat} {ws : List WriteEvent} : PassesAll timeout now ws []
  | cons {now n time : Nat} {ns : List Nat} {ws left : List WriteEvent} :
    Passes (now + timeout) now ws n time left → PassesAll timeout time left ns →
      PassesAll timeout now ws (n :: ns)

/-- The stream brings messages that take up so many bytes on it, one after the other and each within
the time for one. -/
inductive GathersAll (timeout : Nat) : Nat → List ReadEvent → Bytes → List Nat → Prop where
  | nil {now : Nat} {es : List ReadEvent} {buffer : Bytes} : GathersAll timeout now es buffer []
  | cons {now n time : Nat} {ns : List Nat} {es left : List ReadEvent} {buffer full : Bytes} :
    Gathers (now + timeout) n now es buffer time left full →
      GathersAll timeout time left (full.drop n) ns → GathersAll timeout now es buffer (n :: ns)

/-- However a stream cuts what it takes, without pauses it is in time. -/
theorem exists_passes {ws : List WriteEvent} (h : ∀ e ∈ ws, ∃ m, e = .accept m)
    (limit now n : Nat) :
    ∃ left, Passes limit now ws n now left ∧ ∀ e ∈ left, ∃ m, e = .accept m := by
  induction ws generalizing n with
  | nil => exact ⟨[], .free, h⟩
  | cons e ws ih =>
    obtain ⟨m, rfl⟩ := h e (List.mem_cons_self ..)
    have hrest : ∀ e ∈ ws, ∃ m, e = .accept m := fun e he => h e (List.mem_cons_of_mem _ he)
    by_cases hz : n = 0
    · subst hz
      exact ⟨_, .none, h⟩
    · by_cases hlt : n < m
      · refine ⟨_, .part (Nat.pos_of_ne_zero hz) hlt, ?_⟩
        intro e he
        rcases List.mem_cons.mp he with rfl | he
        · exact ⟨m - n, rfl⟩
        · exact hrest e he
      · obtain ⟨left, hpasses, hleft⟩ := ih hrest (n - m)
        exact ⟨left, .piece (Nat.pos_of_ne_zero hz) (Nat.le_of_not_lt hlt) hpasses, hleft⟩

theorem passesAll_of_pieces {ws : List WriteEvent} (h : ∀ e ∈ ws, ∃ m, e = .accept m)
    (timeout now : Nat) (ns : List Nat) : PassesAll timeout now ws ns := by
  induction ns generalizing ws with
  | nil => exact .nil
  | cons n ns ih =>
    obtain ⟨left, hpasses, hleft⟩ := exists_passes h (now + timeout) now n
    exact .cons hpasses (ih hleft)

/-- However a stream cuts what it brings, without pauses it is in time. -/
theorem exists_gathers {es : List ReadEvent} (h : ∀ e ∈ es, ∃ bytes, e = .data bytes)
    {need : Nat} {buffer : Bytes} (hneed : need ≤ (buffer ++ incoming es).length) (limit now : Nat) :
    ∃ left full, Gathers limit need now es buffer now left full ∧
      ∀ e ∈ left, ∃ bytes, e = .data bytes := by
  induction es generalizing buffer with
  | nil =>
    refine ⟨[], buffer, .enough ?_, h⟩
    simpa [incoming] using hneed
  | cons e es ih =>
    obtain ⟨bytes, rfl⟩ := h e (List.mem_cons_self ..)
    by_cases hlong : need ≤ buffer.length
    · exact ⟨_, _, .enough hlong, h⟩
    · have hmore : need ≤ (buffer ++ bytes ++ incoming es).length := by
        rw [List.append_assoc]
        exact hneed
      obtain ⟨left, full, hgathers, hleft⟩ :=
        ih (fun e he => h e (List.mem_cons_of_mem _ he)) hmore
      exact ⟨left, full, .data (Nat.lt_of_not_le hlong) hgathers, hleft⟩

theorem gathersAll_of_pieces {es : List ReadEvent} (h : ∀ e ∈ es, ∃ bytes, e = .data bytes)
    {messages : List Bytes} {buffer : Bytes}
    (hlong : (messages.flatMap Frame.wire).length ≤ (buffer ++ incoming es).length)
    (timeout now : Nat) :
    GathersAll timeout now es buffer (messages.map fun message => (Frame.wire message).length) := by
  induction messages generalizing es buffer with
  | nil => exact .nil
  | cons message messages ih =>
    rw [List.flatMap_cons, List.length_append] at hlong
    have hneed : (Frame.wire message).length ≤ (buffer ++ incoming es).length := by omega
    obtain ⟨left, full, hgathers, hleft⟩ := exists_gathers h hneed (now + timeout) now
    refine .cons hgathers (ih hleft ?_)
    have hbytes := congrArg List.length hgathers.bytes_eq
    have hfull := hgathers.need_le
    simp only [List.length_append, List.length_drop] at hbytes hlong ⊢
    omega

end Stream

namespace Connection

variable {k : Connection}

/-- Messages are sent one after the other, each as its frames. -/
theorem sends_of_passes {messages : List Bytes} (ho : k.outbound = [])
    (hf : k.stream.onFlush = .done)
    (hp : Stream.PassesAll k.timeouts.send k.clock k.stream.writes
      (messages.map fun message => (Frame.wire message).length)) :
    ∃ left, (messages.forM send).Returns k (.ok ()) left ∧
      left.stream.sent = k.stream.sent ++ messages.flatMap Frame.wire ∧
      left.metrics = k.metrics.map (·.messageSent (Frame.total messages) (Frame.bytes messages)) := by
  induction messages generalizing k with
  | nil =>
    refine ⟨k, rfl, (List.append_nil _).symm, ?_⟩
    cases k.metrics with
    | none => rfl
    | some m => exact congrArg some m.messageSent_zero.symm
  | cons message messages ih =>
    rw [List.map_cons] at hp
    cases hp with
    | cons hpasses hrest =>
      obtain ⟨m, hm, hempty, rfl, rfl, hsent⟩ := send_of_passes ho hf hpasses
      have honly := send_onlyWritten message k _ m hm
      have hcounted := send_counted hm
      have htimeouts : m.timeouts = k.timeouts := by
        unfold OnlyWritten at honly
        rw [honly]
      have hsettles : m.stream.onFlush = .done := by
        unfold OnlyWritten at honly
        rw [honly]
        exact hf
      rw [← htimeouts] at hrest
      obtain ⟨left, hleft, hsent', hcounted'⟩ := ih hempty hsettles hrest
      refine ⟨left, (Action.returns_bind_of_ok hm).mpr hleft, ?_, ?_⟩
      · rw [hsent', hsent, List.flatMap_cons, List.append_assoc]
      · rw [hcounted', hcounted, Option.map_map]
        congr 1
        funext n
        exact n.messageSent_add _ _ _ _

/-- Where bytes start with a message on the wire, it can be taken off them. -/
theorem split_of_wire {message : Bytes} {full more rest : Bytes}
    (hlong : Frame.count message.length * Frame.size ≤ full.length)
    (h : Frame.wire message ++ rest <+: full ++ more) :
    full.take message.length = message ∧
      rest <+: full.drop (Frame.count message.length * Frame.size) ++ more := by
  obtain ⟨later, hlater⟩ := h
  have hwire := Frame.length_wire message
  rw [List.append_assoc] at hlater
  have htake := congrArg (List.take (Frame.count message.length * Frame.size)) hlater
  have hdrop := congrArg (List.drop (Frame.count message.length * Frame.size)) hlater
  rw [List.take_append_of_le_length hlong, List.take_left' hwire] at htake
  rw [List.drop_append_of_le_length hlong, List.drop_left' hwire] at hdrop
  constructor
  · calc full.take message.length
        = (full.take (Frame.count message.length * Frame.size)).take message.length := by
          rw [List.take_take, Nat.min_eq_left (Frame.le_count_mul _)]
      _ = (Frame.wire message).take message.length := by rw [htake]
      _ = message := List.take_left
  · exact ⟨later, hdrop⟩

/-- Messages are received one after the other, each without the padding of its last frame. -/
theorem receives_of_gathers {messages : List Bytes} (hi : k.interrupted = false)
    (hg : Stream.GathersAll k.timeouts.receive k.clock k.stream.reads k.inbound
      (messages.map fun message => (Frame.wire message).length))
    (hb : messages.flatMap Frame.wire <+: k.inbound ++ Stream.incoming k.stream.reads) :
    ∃ left, (messages.mapM fun message => receive message.length).Returns k (.ok messages) left ∧
      left.metrics =
        k.metrics.map (·.messageReceived (Frame.total messages) (Frame.bytes messages)) := by
  induction messages generalizing k with
  | nil =>
    refine ⟨k, rfl, ?_⟩
    cases k.metrics with
    | none => rfl
    | some m => exact congrArg some m.messageReceived_zero.symm
  | cons message messages ih =>
    rw [List.map_cons, Frame.length_wire] at hg
    cases hg with
    | cons hgathers hrest =>
      rw [List.flatMap_cons, ← hgathers.bytes_eq] at hb
      obtain ⟨hmessage, hb'⟩ := split_of_wire hgathers.need_le hb
      obtain ⟨m, hm, rfl, rfl, hinbound, hopen, htimeouts, hcounted⟩ :=
        receive_of_gathers ⟨hi, hgathers⟩
      rw [hmessage] at hm
      rw [← htimeouts, ← hinbound] at hrest
      rw [← hinbound] at hb'
      obtain ⟨left, hleft, hcounted'⟩ := ih hopen hrest hb'
      refine ⟨left, ?_, ?_⟩
      · rw [List.mapM_cons]
        refine (Action.returns_bind_of_ok hm).mpr ((Action.returns_bind_of_ok hleft).mpr ?_)
        exact Action.returns_pure.mpr ⟨rfl, rfl⟩
      · rw [hcounted', hcounted, Option.map_map]
        congr 1
        funext n
        exact n.messageReceived_add _ _ _ _

/-- Messages of any lengths that are sent over a stream come out at its other end as they are, however
the bytes are cut into writes and into reads, if both ends are in time. Each goes over the stream as
whole frames, the last one filled up with zeros, and an empty one as none. Both sides count the frames,
and the bytes without the padding. -/
theorem messages_arrive {messages : List Bytes} (ho : k.outbound = [])
    (hf : k.stream.onFlush = .done)
    (hp : Stream.PassesAll k.timeouts.send k.clock k.stream.writes
      (messages.map fun message => (Frame.wire message).length)) :
    ∃ sender, (messages.forM send).Returns k (.ok ()) sender ∧
      sender.stream.sent = k.stream.sent ++ messages.flatMap Frame.wire ∧
      (∀ message ∈ messages, (Frame.wire message).length = Frame.count message.length * Frame.size) ∧
      sender.metrics =
        k.metrics.map (·.messageSent (Frame.total messages) (Frame.bytes messages)) ∧
      ∀ l : Connection, l.inbound = [] → l.interrupted = false →
        Stream.GathersAll l.timeouts.receive l.clock l.stream.reads []
          (messages.map fun message => (Frame.wire message).length) →
        sender.stream.sent <+: k.stream.sent ++ Stream.incoming l.stream.reads →
        ∃ receiver,
          (messages.mapM fun message => receive message.length).Returns l (.ok messages) receiver ∧
            receiver.metrics =
              l.metrics.map (·.messageReceived (Frame.total messages) (Frame.bytes messages)) := by
  obtain ⟨sender, hsender, hsent, hcounted⟩ := sends_of_passes ho hf hp
  refine ⟨sender, hsender, hsent, fun message _ => Frame.length_wire message, hcounted, ?_⟩
  intro l hempty hopen hgathers hdelivered
  rw [← hempty] at hgathers
  refine receives_of_gathers hopen hgathers ?_
  rw [hempty, List.nil_append]
  rw [hsent] at hdelivered
  exact (List.prefix_append_right_inj _).mp hdelivered

/-- Three messages, one of them empty and one a whole frame, over streams that cut the bytes elsewhere
than between frames. -/
theorem messages_arrive_in_pieces :
    ∃ (messages : List Bytes) (k l sender receiver : Connection),
      messages = [[1, 2, 3], [], List.replicate 1024 7] ∧
      k.stream.writes = [.accept 1, .accept 1500, .accept 9] ∧
      (messages.forM send).Returns k (.ok ()) sender ∧
      l.stream.reads =
        [.data (sender.stream.sent.take 700), .data (sender.stream.sent.drop 700)] ∧
      (messages.mapM fun message => receive message.length).Returns l (.ok messages) receiver ∧
      sender.metrics = some (Metrics.zero.messageSent 2 1027) ∧
      receiver.metrics = some (Metrics.zero.messageReceived 2 1027) := by
  let messages : List Bytes := [[1, 2, 3], [], List.replicate 1024 7]
  let k : Connection := .onStream
    ⟨[], [.accept 1, .accept 1500, .accept 9], .done, .done, [], false⟩ 0 ⟨100, 50⟩ (some .zero)
  let w : Bytes := messages.flatMap Frame.wire
  let l : Connection := .onStream
    ⟨[.data (w.take 700), .data (w.drop 700)], [], .done, .done, [], false⟩ 0 ⟨100, 50⟩ (some .zero)
  have hframes : Frame.total messages = 2 := by decide +kernel
  have hbytes : Frame.bytes messages = 1027 := by decide +kernel
  have hpasses : Stream.PassesAll k.timeouts.send k.clock k.stream.writes
      (messages.map fun message => (Frame.wire message).length) := by
    apply Stream.passesAll_of_pieces
    intro e he
    simp only [k, onStream, List.mem_cons, List.not_mem_nil, or_false] at he
    rcases he with rfl | rfl | rfl <;> exact ⟨_, rfl⟩
  obtain ⟨sender, hsender, hsent, -, hcounted, harrive⟩ := messages_arrive rfl rfl hpasses
  have hincoming : Stream.incoming l.stream.reads = w := by
    simp [l, onStream, Stream.incoming, ReadEvent.bytes]
  have hgathers : Stream.GathersAll l.timeouts.receive l.clock l.stream.reads []
      (messages.map fun message => (Frame.wire message).length) := by
    apply Stream.gathersAll_of_pieces
    · intro e he
      simp only [l, onStream, List.mem_cons, List.not_mem_nil, or_false] at he
      rcases he with rfl | rfl <;> exact ⟨_, rfl⟩
    · have hlength : (messages.flatMap Frame.wire).length =
          ([] ++ Stream.incoming l.stream.reads).length := by
        rw [hincoming, List.nil_append]
      exact Nat.le_of_eq hlength
  have hsame : sender.stream.sent = w := hsent
  have hdelivered : sender.stream.sent <+: k.stream.sent ++ Stream.incoming l.stream.reads := by
    rw [hincoming, hsame]
    exact List.prefix_refl _
  obtain ⟨receiver, hreceiver, hcounted'⟩ := harrive l rfl rfl hgathers hdelivered
  rw [hframes, hbytes] at hcounted hcounted'
  refine ⟨messages, k, l, sender, receiver, rfl, rfl, hsender, ?_, hreceiver, hcounted, hcounted'⟩
  rw [hsame]
  rfl

end Connection

end Courier
