import Courier.Client.Transfer
import Courier.Proofs.Hanging

namespace Courier

/-- The state in which a transfer with this result leaves a session. -/
def SessionState.afterTransfer : Except TransferError Delivery → SessionState
  | .ok _ => .done
  | .error (.transferAbandoned _) => .failed
  | .error _ => .keyEstablished

theorem SessionState.afterTransfer_cases (r : Except TransferError Delivery) :
    afterTransfer r = .keyEstablished ∨ afterTransfer r = .done ∨ afterTransfer r = .failed := by
  unfold afterTransfer
  split <;> simp

/-- The session once a transfer with this result is closed. -/
def Session.closed (s : Session) : Except TransferError Delivery → Session
  | .ok _ => s.finishTransfer
  | .error (.transferAbandoned _) => s.abandonTransfer
  | .error _ => s.interruptTransfer

theorem Session.closed_of_ne {s : Session} {e : TransferError}
    (h : ∀ attempts, e ≠ .transferAbandoned attempts) :
    s.closed (.error e) = s.interruptTransfer := by
  cases e with
  | transferAbandoned attempts => exact absurd rfl (h attempts)
  | _ => rfl

/-- Only the state changes, and what it was during the transfer does not matter. -/
theorem Session.closed_eq {s : Session} (h : s.state = .transferring)
    (r : Except TransferError Delivery) : s.closed r = { s with state := .afterTransfer r } := by
  unfold closed SessionState.afterTransfer
  split
  · rfl
  · rfl
  · rw [interruptTransfer, if_pos h]

namespace Client

variable {ω α : Type} {env : Environment ω} {c d : Client ω}

@[simp] theorem returns_consult {ask : ω → Except TransferError α × ω}
    {act : Except TransferError α → Act} {r : Except TransferError α} :
    (consult ask act).Returns c r d ↔
      r = (ask c.world).1 ∧
        d = { c with world := (ask c.world).2, journal := c.journal ++ [act (ask c.world).1] } :=
  Action.returns_ofExcept

@[simp] theorem returns_changeSession {f : Session → Session} {r : Except TransferError Unit} :
    (changeSession f).Returns c r d ↔ r = .ok () ∧ d = { c with session := f c.session } :=
  Action.returns_modify

@[simp] theorem returns_require {f : Session → Except TransferError α}
    {r : Except TransferError α} : (require f).Returns c r d ↔ r = f c.session ∧ d = c :=
  Action.returns_get_bind.trans Action.returns_ofExcept

/-- The connection on which a client begins a round trip, once it has a stream. -/
def opening (env : Environment ω) (c : Client ω) (stream : Stream) : Connection :=
  Connection.onStream stream c.clock env.timeouts (some c.metrics.roundTripStarted)

/-- What a round trip that came back is noted with. -/
def outcome (answer : α → Option ResponsePayload) (r : Except TransferError α) :
    Except Stop (Option ResponsePayload) :=
  (r.map answer).mapError .failed

/-- How a client is left when it got no connection. -/
def unconnected (c : Client ω) (world : ω) (request : Request) (e : TransferError) : Client ω :=
  conclude { c with metrics := c.metrics.roundTripStarted, world }
    ⟨request, .error e, none, .error (.failed e)⟩

/-- How a client is left when it got a connection, whatever came of it. -/
def disconnected (c : Client ω) (world : ω) (trip : RoundTrip) (left : Connection) : Client ω :=
  conclude (({ c with metrics := c.metrics.roundTripStarted, world } : Client ω).absorb left) trip

theorem outcome_eq (answer : α → Option ResponsePayload) (r : Except TransferError α) :
    (r.mapError .failed : Except Stop α).map answer = outcome answer r := by
  cases r <;> rfl

section Converse

variable {request : Request} {talk : Action Connection α} {answer : α → Option ResponsePayload}
  {world : ω} {y : Except Stop α}

theorem converse_of_unconnected {e : TransferError} (h : env.connect c.world = (.error e, world)) :
    (converse env request talk answer).Leads c (.error (.failed e))
      (unconnected c world request e) := by
  unfold Action.Leads
  simp only [converse, h, unconnected, Action.result]

theorem converse_of_connected {stream : Stream} {left : Connection}
    (h : env.connect c.world = (.ok stream, world))
    (htalk : talk.Leads (opening env c stream) y left) :
    (converse env request talk answer).Leads c y
      (disconnected c world ⟨request, .ok (opening env c stream), some left, y.map answer⟩ left) := by
  unfold Action.Leads at htalk ⊢
  unfold opening at htalk
  rcases ht : talk (Connection.onStream stream c.clock env.timeouts
    (some c.metrics.roundTripStarted)) with ⟨a, m⟩ | ⟨stop, m⟩
  · rw [ht] at htalk
    obtain ⟨rfl, rfl⟩ := Prod.mk.inj htalk
    simp only [converse, h, ht, Action.result, disconnected, opening, Except.map]
  · rw [ht] at htalk
    obtain ⟨rfl, rfl⟩ := Prod.mk.inj htalk
    simp only [converse, h, ht, Action.result, disconnected, opening, Except.map]

/-- A round trip either gets no connection, or it is what was said on a fresh one, however that
ends. -/
theorem converse_cases (h : (converse env request talk answer).Leads c y d) :
    (∃ e world, env.connect c.world = (.error e, world) ∧ y = .error (.failed e) ∧
      d = unconnected c world request e) ∨
    ∃ stream world left, env.connect c.world = (.ok stream, world) ∧
      talk.Leads (opening env c stream) y left ∧
      d = disconnected c world ⟨request, .ok (opening env c stream), some left, y.map answer⟩
        left := by
  rcases hc : env.connect c.world with ⟨e | stream, world⟩
  · obtain ⟨rfl, rfl⟩ := Action.leads_unique (converse_of_unconnected hc) h
    exact .inl ⟨e, world, rfl, rfl, rfl⟩
  · obtain ⟨z, hz⟩ := Action.leads_final talk (opening env c stream)
    obtain ⟨rfl, rfl⟩ := Action.leads_unique (converse_of_connected hc hz) h
    exact .inr ⟨stream, world, _, rfl, hz, rfl⟩

end Converse

/-- Surroundings in which nothing fails until the streams, which are opened in turn, are used up. -/
def inTurn : Environment (List Stream) where
  connect
    | [] => (.error (.connectFailed "server" "none left"), [])
    | stream :: streams => (.ok stream, streams)
  generateKeys w := (.ok (⟨List.replicate 160 1, rfl⟩, ⟨[2]⟩), w)
  derivePublicKey _ w := (.ok ⟨List.replicate 160 1, rfl⟩, w)
  unwrapKey _ wrapped w := (.ok wrapped, w)
  encrypt _ content w := (.ok content, w)
  loadIdentity w := (.ok none, w)
  storeIdentity _ w := (.ok (), w)
  loadFile _ w := (.ok [], w)
  timeouts := ⟨100, 50⟩
  maxRetries := 3

/-- A peer that takes what it is sent and brings the bytes in the pieces given. -/
def heedful (reads : List ReadEvent) : Stream :=
  ⟨reads, [], .done, .done, [], false⟩

end Client

end Courier
