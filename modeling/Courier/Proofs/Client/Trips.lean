import Courier.Proofs.Client.Answering
import Courier.Proofs.Client.Conversation
import Courier.Proofs.Client.Failures

namespace Courier

/-- The surroundings pass no judgement on uploads: neither a connection that is not opened nor a
content that is not encrypted is one. -/
structure Environment.IsNeutral {ω : Type} (env : Environment ω) : Prop where
  connect : ∀ w, FailsPlainly (env.connect w).1
  encrypt : ∀ key content w, FailsPlainly (env.encrypt key content w).1

/-- Neither a connection that is not opened nor a content that is not encrypted has a cause but those
of `P`. -/
structure Environment.FailsWithin {ω : Type} (env : Environment ω) (P : TransferError → Prop) :
    Prop where
  connect : ∀ w e, (env.connect w).1 = .error e → P e
  encrypt : ∀ key content w e, (env.encrypt key content w).1 = .error e → P e

theorem Environment.IsNeutral.failsWithin {ω : Type} {env : Environment ω} (h : env.IsNeutral) :
    env.FailsWithin TransferError.IsPlain :=
  ⟨h.connect, h.encrypt⟩

theorem Environment.FailsWithin.mono {ω : Type} {env : Environment ω} {P Q : TransferError → Prop}
    (h : env.FailsWithin P) (hPQ : ∀ e, P e → Q e) : env.FailsWithin Q :=
  ⟨fun w e he => hPQ e (h.connect w e he), fun key content w e he =>
    hPQ e (h.encrypt key content w e he)⟩

/-- A payload's code answers only if it is the expected one or the refusal in its place. -/
theorem ResponseHeader.code_cases_of_answers {expected code : ResponseCode}
    (h : answers expected code.value) : code = expected ∨ expected.substitute? = some code := by
  revert h
  cases expected <;> cases code <;> decide

/-- The answer that a request is sent for; a notice has none. -/
def Request.expects : Request → Option ResponseCode
  | .registration _ => some .registrationSuccess
  | .sendPublicKey _ _ _ => some .keyExchange
  | .reconnect _ _ => some .reconnectionAccepted
  | .sendFile _ _ _ => some .fileDelivered
  | .verdict .invalid _ _ => none
  | .verdict _ _ _ => some .messageDelivered

theorem Request.expects_verdict {verdict : Verdict} (hv : verdict ≠ .invalid) (id : ClientId)
    (file : Name) : (Request.verdict verdict id file).expects = some .messageDelivered := by
  cases verdict with
  | valid => rfl
  | invalid => exact absurd rfl hv
  | finalInvalid => rfl

/-- What is said for a request on its connection, and the payload of the answer, if there is one. -/
def Request.talk (r : Request) : Action Connection (Option ResponsePayload) :=
  match r.expects with
  | some expected => some <$> Connection.ask r expected
  | none => (fun _ => none) <$> Connection.tell r

/-- The round trip gets no stream, or it is the conversation about its request, from first to last,
on a fresh connection over the stream it gets. -/
inductive RoundTrip.Held {ω : Type} (env : Environment ω) : RoundTrip → Prop where
  | unconnected {request : Request} {e : TransferError} {w w' : ω} :
    env.connect w = (.error e, w') → Held env ⟨request, .error e, none, .error (.failed e)⟩
  | connected {request : Request} {stream : Stream} {clock : Nat} {metrics : Metrics}
      {left : Connection} {y : Except TransferError (Option ResponsePayload)} {w w' : ω} :
    env.connect w = (.ok stream, w') →
      request.talk.Returns (.onStream stream clock env.timeouts (some metrics)) y left →
        Held env ⟨request, .ok (.onStream stream clock env.timeouts (some metrics)), some left,
          y.mapError .failed⟩

theorem Request.talk_raises (r : Request) : r.talk.Raises TransferError.IsPlain := by
  intro k e left h
  unfold talk at h
  cases he : r.expects with
  | some expected =>
    simp only [he] at h
    obtain ⟨y, hy, hask⟩ := Action.returns_map.mp h
    cases y with
    | ok p => cases hy
    | error e' =>
      cases hy
      exact Connection.ask_raises r expected k e left hask
  | none =>
    simp only [he] at h
    obtain ⟨y, hy, htell⟩ := Action.returns_map.mp h
    cases y with
    | ok p => cases hy
    | error e' =>
      cases hy
      exact Connection.tell_raises r k e left htell

/-- A round trip that failed has a cause of the surroundings, or a plain one. -/
theorem RoundTrip.Held.cause {ω : Type} {env : Environment ω} {P : TransferError → Prop}
    (hf : env.FailsWithin P) (hplain : ∀ e, e.IsPlain → P e) {trip : RoundTrip} {e : TransferError}
    (h : trip.Held env) (he : trip.outcome = .error (.failed e)) : P e := by
  cases h with
  | @unconnected request e' w w' hconnect =>
    cases he
    exact hf.connect w e (by rw [hconnect])
  | @connected request stream clock metrics left y w w' hconnect htalk =>
    cases y with
    | ok p => cases he
    | error e' =>
      cases he
      exact hplain e (request.talk_raises _ e left htalk)

namespace Client

variable {ω : Type} {env : Environment ω} {c m d : Client ω}

theorem inTurn_isNeutral : inTurn.IsNeutral := by
  refine ⟨fun w => ?_, fun _ content _ => failsPlainly_ok content⟩
  cases w with
  | nil => exact failsPlainly_error trivial
  | cons stream streams => exact failsPlainly_ok stream

theorem eq_of_upload {id : ClientId} {file : Name} {content : Bytes} {r : Request}
    (h : Request.upload id file content = .ok r) : r = .sendFile id file content := by
  unfold Request.upload at h
  cases hh : Request.header (.sendFile id file content) with
  | error e =>
    rw [hh] at h
    cases h
  | ok hd =>
    rw [hh] at h
    cases h
    rfl

/-- The round trips among what a client did. -/
def trips (acts : List Act) : List RoundTrip :=
  acts.filterMap fun
    | .roundTrip trip => some trip
    | _ => none

@[simp] theorem trips_cons (trip : RoundTrip) (acts : List Act) :
    trips (.roundTrip trip :: acts) = trip :: trips acts :=
  rfl

@[simp] theorem trips_append (as bs : List Act) : trips (as ++ bs) = trips as ++ trips bs :=
  List.filterMap_append

theorem mem_of_mem_trips {trip : RoundTrip} {acts : List Act} (h : trip ∈ trips acts) :
    Act.roundTrip trip ∈ acts := by
  obtain ⟨act, hact, htrip⟩ := List.mem_filterMap.mp h
  split at htrip
  · cases htrip
    exact hact
  · cases htrip

/-- What is said for a request that is answered. -/
theorem talk_of_expects {request : Request} {expected : ResponseCode}
    (he : request.expects = some expected) :
    request.talk = some <$> Connection.ask request expected := by
  unfold Request.talk
  rw [he]

/-- What is said for a notice. -/
theorem talk_of_notice {request : Request} (he : request.expects = none) :
    request.talk = (fun _ => none) <$> Connection.tell request := by
  unfold Request.talk
  rw [he]

/-- A payload is handed on only if its code answers the request. -/
theorem answers_of_ask {request : Request} {expected : ResponseCode} {p : ResponsePayload}
    (h : (ask env request expected).Returns c (.ok p) d) :
    ResponseHeader.answers expected p.code.value := by
  rcases converse_cases (Action.leads_of_returns h) with
    ⟨e, w, -, he, -⟩ | ⟨stream, w, left, -, hleft, -⟩
  · cases he
  · exact Connection.answers_of_ask rfl (Action.returns_ok_of_leads hleft)

end Client

end Courier
