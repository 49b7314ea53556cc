import Courier.Client.Basic

namespace Courier

namespace Connection

/-- Sends a request and receives its answer. The answer counts even if closing fails. -/
def ask (request : Request) (expected : ResponseCode) : Action Connection ResponsePayload := do
  send (← Action.ofExcept request.encode)
  let message ← receiveAnnounced ResponseHeader.size (ResponseHeader.announced expected)
  let response ← Action.ofExcept (Response.decode message)
  let _ ← Action.attempt close
  return response.payload

/-- Sends a request that has no answer. -/
def tell (request : Request) : Action Connection Unit := do
  send (← Action.ofExcept request.encode)
  close

end Connection

namespace Client

variable {ω : Type}

/-- What a conversation leaves behind: the time, the counters and the log. -/
def absorb (c : Client ω) (k : Connection) : Client ω :=
  { c with clock := k.clock, metrics := k.metrics.getD c.metrics, log := c.log ++ k.log }

/-- Notes a round trip. One that failed is counted; one that hangs is not over. -/
def conclude (c : Client ω) (trip : RoundTrip) : Client ω :=
  { c with
    journal := c.journal ++ [.roundTrip trip]
    metrics :=
      match trip.outcome with
      | .error (.failed _) => c.metrics.roundTripFailed
      | _ => c.metrics }

/-- Talks to the server on a fresh connection. -/
def converse {α : Type} (env : Environment ω) (request : Request) (talk : Action Connection α)
    (answer : α → Option ResponsePayload) : Action (Client ω) α :=
  fun c =>
    let c := { c with metrics := c.metrics.roundTripStarted }
    match env.connect c.world with
    | (.error e, world) =>
      .error (.failed e)
        (conclude { c with world } ⟨request, .error e, none, .error (.failed e)⟩)
    | (.ok stream, world) =>
      let c := { c with world }
      let k := Connection.onStream stream c.clock env.timeouts (some c.metrics)
      match talk k with
      | .ok a left => .ok a (conclude (c.absorb left) ⟨request, .ok k, some left, .ok (answer a)⟩)
      | .error stop left =>
        .error stop (conclude (c.absorb left) ⟨request, .ok k, some left, .error stop⟩)

/-- Sends a request and returns the answer, whose header has been judged. -/
def ask (env : Environment ω) (request : Request) (expected : ResponseCode) :
    Action (Client ω) ResponsePayload :=
  converse env request (Connection.ask request expected) some

def tell (env : Environment ω) (request : Request) : Action (Client ω) Unit :=
  converse env request (Connection.tell request) fun _ => none

end Client

end Courier
