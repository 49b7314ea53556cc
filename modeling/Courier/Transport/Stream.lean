import Courier.Transport.Clock
import Courier.Transport.Frame

/-!
A byte stream to a peer, given by what will happen on it. Reads and writes take the events in
order. A pause runs from the moment at which it is first met, also when the wait for it is given
up, and is gone when it is over.
-/

namespace Courier

/-- A failure of the stream itself. -/
structure Fault where
  text : String
  /-- Nothing could be written. -/
  writeZero : Bool
  deriving DecidableEq

namespace Fault

def writeError (f : Fault) : TransferError :=
  if f.writeZero then .zeroWrite else .writeFailed f.text

def readError (f : Fault) : TransferError :=
  .readFailed f.text

/-- A write that took no byte. -/
def nothingWritten : Fault :=
  ⟨"failed to write frame to transport", true⟩

end Fault

inductive ReadEvent where
  /-- Bytes arrive; no bytes are no event. -/
  | data (bytes : Bytes)
  /-- A read finds the end of the stream; a later one may find more. -/
  | ended
  | pause (ms : Nat) (due : Option Nat)
  | fault (f : Fault)
  | hang
  deriving DecidableEq

/-- When a pause that has begun is over. -/
def ReadEvent.due? : ReadEvent → Option Nat
  | .pause _ due => due
  | _ => none

inductive WriteEvent where
  /-- The next `n` bytes pass. -/
  | accept (n : Nat)
  /-- A write takes no byte. -/
  | refuse
  | pause (ms : Nat) (due : Option Nat)
  | fault (f : Fault)
  | hang
  deriving DecidableEq

/-- When a pause that has begun is over. -/
def WriteEvent.due? : WriteEvent → Option Nat
  | .pause _ due => due
  | _ => none

/-- How every flush, or every shutdown, ends. -/
inductive Settle where
  | done
  | fault (f : Fault)
  | hang
  deriving DecidableEq

structure Stream where
  reads : List ReadEvent
  writes : List WriteEvent
  onFlush : Settle
  onShutdown : Settle
  /-- What the peer has been given. -/
  sent : Bytes
  /-- Whether a shutdown was tried. -/
  shutdown : Bool
  deriving DecidableEq

namespace Stream

/-- When a wait on the stream is over: at `limit`, or when a pause that has begun is over before
that. -/
def nextDue (s : Stream) (now limit : Nat) : Nat :=
  ([s.reads.head?.bind (·.due?), s.writes.head?.bind (·.due?)].filterMap id).foldl
    (fun next due => if now < due then min next due else next) limit

/-- How far reading or writing came. -/
inductive Progress where
  | done
  /-- Short of that: a read found the end of the stream, or a write would have to wait and little
  enough is left. -/
  | short
  | fault (f : Fault)
  | expired
  /-- Stuck for good, and no deadline to end it. -/
  | hung
  deriving DecidableEq

/-- What waiting for nothing comes to. -/
def stuck (deadline : Option Nat) (now : Nat) : Progress × Nat :=
  match deadline with
  | some d => (.expired, d)
  | none => (.hung, now)

structure Filled where
  progress : Progress
  time : Nat
  buffer : Bytes
  reads : List ReadEvent

/-- Reads into a buffer until it holds a frame. -/
def fill (deadline : Option Nat) (now : Nat) (buffer : Bytes) : List ReadEvent → Filled
  | [] => ⟨.short, now, buffer, []⟩
  | .data bytes :: es =>
    if Frame.size ≤ (buffer ++ bytes).length then ⟨.done, now, buffer ++ bytes, es⟩
    else fill deadline now (buffer ++ bytes) es
  | .ended :: es => ⟨.short, now, buffer, es⟩
  | .fault f :: es => ⟨.fault f, now, buffer, es⟩
  | .hang :: es => ⟨(stuck deadline now).1, (stuck deadline now).2, buffer, .hang :: es⟩
  | .pause ms due :: es =>
    match Clock.wait deadline now (due.getD (now + ms)) with
    | .reached time => fill deadline time buffer es
    | .expired time => ⟨.expired, time, buffer, .pause ms (some (due.getD (now + ms))) :: es⟩

structure Drained where
  progress : Progress
  time : Nat
  /-- What the peer took. -/
  sent : Bytes
  /-- What is left to write. -/
  buffer : Bytes
  writes : List WriteEvent

/-- Writes out a buffer until it is empty, or until the stream keeps it waiting while fewer than
`enough` bytes are left. -/
def drain (deadline : Option Nat) (enough now : Nat) (buffer : Bytes) : List WriteEvent → Drained
  | [] => ⟨.done, now, buffer, [], []⟩
  | e :: es =>
    if buffer = [] then ⟨.done, now, [], [], e :: es⟩
    else
      match e with
      | .accept n =>
        if buffer.length < n then ⟨.done, now, buffer, [], .accept (n - buffer.length) :: es⟩
        else
          let d := drain deadline enough now (buffer.drop n) es
          { d with sent := buffer.take n ++ d.sent }
      | .refuse => ⟨.fault .nothingWritten, now, [], buffer, es⟩
      | .fault f => ⟨.fault f, now, [], buffer, es⟩
      | .hang =>
        if buffer.length < enough then ⟨.short, now, [], buffer, .hang :: es⟩
        else ⟨(stuck deadline now).1, (stuck deadline now).2, [], buffer, .hang :: es⟩
      | .pause ms due =>
        let due := due.getD (now + ms)
        if now < due ∧ buffer.length < enough then
          ⟨.short, now, [], buffer, .pause ms (some due) :: es⟩
        else
          match Clock.wait deadline now due with
          | .reached time => drain deadline enough time buffer es
          | .expired time => ⟨.expired, time, [], buffer, .pause ms (some due) :: es⟩

end Stream

end Courier
