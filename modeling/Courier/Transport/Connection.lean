import Courier.Action
import Courier.Event
import Courier.Transport.Stream

/-!
Messages over a stream, as whole frames. A message is sent under one deadline and received under
one deadline, however many frames it takes.

A received message is as long as its first bytes say; the padding in its last frame is dropped.
What was taken for a message that fails is lost, but bytes that fill no frame yet are kept.
-/

namespace Courier

/-- Milliseconds for a whole message each way. -/
structure Timeouts where
  send : Nat
  receive : Nat
  deriving DecidableEq

structure Connection where
  stream : Stream
  clock : Nat
  timeouts : Timeouts
  /-- Bytes read that make up no frame yet. -/
  inbound : Bytes
  /-- The end of the stream or a fault has been handed on: the next frame wanted is refused without
  a read. -/
  interrupted : Bool
  /-- Frames that the peer has not taken yet. -/
  outbound : Bytes
  metrics : Option Metrics
  log : List Event
  deriving DecidableEq

namespace Connection

def onStream (stream : Stream) (clock : Nat) (timeouts : Timeouts) (metrics : Option Metrics) :
    Connection :=
  ⟨stream, clock, timeouts, [], false, [], metrics, []⟩

/-- From this many bytes on, frames are written out before another one is added. -/
def highWater : Nat := 8192

/-- Writes out buffered frames: all of them, unless the stream keeps them waiting while fewer than
`enough` bytes are left. Returns whether all are written. -/
def writeOut (deadline : Option Nat) (enough : Nat) : Action Connection Bool :=
  fun c =>
    let d := Stream.drain deadline enough c.clock c.outbound c.stream.writes
    let c := { c with
      clock := d.time
      outbound := d.buffer
      stream := { c.stream with writes := d.writes, sent := c.stream.sent ++ d.sent } }
    match d.progress with
    | .done => .ok true c
    | .short => .ok false c
    | .fault f => .error (.failed f.writeError) c
    | .expired => .error (.failed .timeout) c
    | .hung => .error .hung c

def settle (deadline : Option Nat) (s : Settle) : Action Connection Unit :=
  fun c =>
    match s with
    | .done => .ok () c
    | .fault f => .error (.failed f.writeError) c
    | .hang =>
      match deadline with
      | some d => .error (.failed .timeout) { c with clock := d }
      | none => .error .hung c

/-- Writes out the buffered frames and flushes the stream. -/
def flush (deadline : Option Nat) : Action Connection Unit := do
  let _ ← writeOut deadline 0
  settle deadline (← get).stream.onFlush

/-- Waits for the stream, not past the deadline. -/
def await (deadline : Nat) : Action Connection Unit :=
  fun c =>
    if deadline ≤ c.clock then .error (.failed .timeout) c
    else .ok () { c with clock := c.stream.nextDue c.clock deadline }

/-- Flushes when there are too many bytes in the buffer. A flush that is kept waiting when it has
made room is left for later: after the wait there is room, even if the deadline ended it. -/
def makeRoom (deadline : Nat) : Action Connection Unit := do
  if (← get).outbound.length ≥ highWater then
    if ← writeOut (some deadline) highWater then
      match (← get).stream.onFlush with
      | .hang => await deadline
      | s => settle (some deadline) s
    else await deadline

/-- Buffers a chunk as a frame. -/
def feed (deadline : Nat) (chunk : Bytes) : Action Connection Unit := do
  makeRoom deadline
  modify fun c => { c with outbound := c.outbound ++ Frame.pad chunk }

/-- Sends a message; an empty one takes no frame and is not counted. -/
def send (message : Bytes) : Action Connection Unit := do
  if message = [] then return
  let c ← get
  let deadline := c.clock + c.timeouts.send
  (Frame.chunks message).forM (feed deadline)
  flush (some deadline)
  modify fun c => { c with
    metrics := c.metrics.map (·.messageSent (Frame.count message.length) message.length) }

/-- The next frame: a whole one, or at the end of the stream what is left. -/
def nextFrame (deadline : Option Nat) : Action Connection Bytes :=
  fun c =>
    if c.interrupted then .error (.failed .connectionClosed) { c with interrupted := false }
    else if Frame.size ≤ c.inbound.length then
      .ok (c.inbound.take Frame.size) { c with inbound := c.inbound.drop Frame.size }
    else
      let r := Stream.fill deadline c.clock c.inbound c.stream.reads
      let c := { c with
        clock := r.time
        inbound := r.buffer
        stream := { c.stream with reads := r.reads } }
      match r.progress with
      | .done => .ok (r.buffer.take Frame.size) { c with inbound := r.buffer.drop Frame.size }
      | .short =>
        if r.buffer = [] then .error (.failed .connectionClosed) c
        else .ok r.buffer { c with inbound := [], interrupted := true }
      | .fault f => .error (.failed f.readError) { c with interrupted := true }
      | .expired => .error (.failed .timeout) c
      | .hung => .error .hung c

/-- Adds frames to `data` until it has `wanted` bytes. Every frame has a byte at least, so `wanted`
of them are enough. -/
def collect (deadline : Option Nat) (wanted : Nat) :
    (most : Nat) → (data : Bytes) → (frames : Nat) → Action Connection (Bytes × Nat)
  | 0, data, frames => pure (data, frames)
  | most + 1, data, frames =>
    if wanted ≤ data.length then pure (data, frames)
    else do
      let frame ← nextFrame deadline
      collect deadline wanted most (data ++ frame) (frames + 1)

/-- Receives a message whose length its first `head` bytes tell. `announced` sees just these, once,
and reports events and a length, or a cause to give up. -/
def receiveAnnounced (head : Nat) (announced : Bytes → List Event × Except TransferError Nat) :
    Action Connection Bytes := do
  let c ← get
  let deadline := some (c.clock + c.timeouts.receive)
  let (data, frames) ← collect deadline head head [] 0
  let (events, length) := announced (data.take head)
  modify fun c => { c with log := c.log ++ events }
  let total ← Action.ofExcept length
  let (data, frames) ← collect deadline total total data frames
  modify fun c => { c with metrics := c.metrics.map (·.messageReceived frames total) }
  return data.take total

/-- Receives a message of known length. -/
def receive (length : Nat) : Action Connection Bytes :=
  receiveAnnounced length fun _ => ([], .ok length)

/-- Writes out what is buffered and shuts the stream down. No deadline holds here. -/
def close : Action Connection Unit := do
  flush none
  modify fun c => { c with stream := { c.stream with shutdown := true } }
  settle none (← get).stream.onShutdown

end Connection

end Courier
