import Courier.Client.Operation
import Courier.Proofs.Client.Trips
import Courier.Proofs.Wire.Agreement

namespace Courier.Client

variable {ω : Type}

/-- What is done with an answer depends only on the answers that are expected. -/
theorem ask_bind_congr {α : Type} {env : Environment ω} {request : Request}
    {expected : ResponseCode} {f g : ResponsePayload → Action (Client ω) α}
    (h : ∀ p, p.code = expected ∨ expected.substitute? = some p.code → f p = g p) :
    (ask env request expected >>= f) = ask env request expected >>= g := by
  funext c
  change EStateM.bind _ f c = EStateM.bind _ g c
  unfold EStateM.bind
  cases ha : ask env request expected c with
  | error e d => rfl
  | ok p d =>
    have hcode := ResponseHeader.code_cases_of_answers (answers_of_ask (Action.returns_ok.mpr ha))
    simp only [h p hcode]

section Otherwise

variable (env : Environment ω)

theorem register_eq_registerOr (otherwise : ResponsePayload → Action (Client ω) ClientId)
    (username : String) : register env username = registerOr env otherwise username := by
  refine bind_congr fun name => ask_bind_congr fun p hp => ?_
  cases p with
  | registrationSuccess id => rfl
  | registrationFailure => rfl
  | _ => simp [ResponsePayload.code, ResponseCode.substitute?] at hp

theorem exchangeKeys_eq_exchangeKeysOr (otherwise : ResponsePayload → Action (Client ω) Unit) :
    exchangeKeys env = exchangeKeysOr env otherwise := by
  refine bind_congr fun id => bind_congr fun key => bind_congr fun c =>
    ask_bind_congr fun p hp => ?_
  cases p with
  | keyExchange echoed wrapped => rfl
  | _ => simp [ResponsePayload.code, ResponseCode.substitute?] at hp

theorem reconnect_eq_reconnectOr (otherwise : ResponsePayload → Action (Client ω) Unit) :
    reconnect env = reconnectOr env otherwise := by
  refine bind_congr fun id => bind_congr fun c => ask_bind_congr fun p hp => ?_
  cases p with
  | reconnectionAccepted echoed wrapped => rfl
  | reconnectionDenied echoed => rfl
  | _ => simp [ResponsePayload.code, ResponseCode.substitute?] at hp

theorem uploadOnce_eq_uploadOnceOr (otherwise : ResponsePayload → Action (Client ω) Receipt)
    (file : Name) (content : Bytes) :
    uploadOnce env file content = uploadOnceOr env otherwise file content := by
  refine bind_congr fun id => bind_congr fun key => bind_congr fun sealed =>
    bind_congr fun request => bind_congr fun _ => ask_bind_congr fun p hp => ?_
  cases p with
  | fileDelivered echoed contentSize delivered reported => rfl
  | _ => simp [ResponsePayload.code, ResponseCode.substitute?] at hp

theorem sendVerdict_eq_sendVerdictOr (otherwise : ResponsePayload → Action (Client ω) Unit)
    (verdict : Verdict) (file : Name) :
    sendVerdict env verdict file = sendVerdictOr env otherwise verdict file := by
  refine bind_congr fun id => ask_bind_congr fun p hp => ?_
  cases p with
  | messageDelivered echoed => rfl
  | _ => simp [ResponsePayload.code, ResponseCode.substitute?] at hp

end Otherwise

/-- A response whose header is accepted has a payload of an expected code and of the declared size,
unless it has to bring a key and declares too little for the identity before it. Whatever an operation
would do with another payload, it comes to the same. -/
theorem accepted_answers_fit (env : Environment ω) :
    (∀ (h : ResponseHeader) (expected : ResponseCode) (body : Bytes),
      h.validate expected = .ok () → h.payloadSize.toNat ≤ body.length →
        (h.IsShortForKey →
          Response.decodeBody h body = .error (.truncatedPayload 16 h.payloadSize.toNat)) ∧
        (¬h.IsShortForKey → ∃ p, Response.decodeBody h body = .ok p ∧ p.code.value = h.code ∧
          (p.code = expected ∨ expected.substitute? = some p.code) ∧
          p.size = h.payloadSize.toNat)) ∧
    (∀ (h : ResponseHeader) (expected : ResponseCode) (body : Bytes) (code : UInt16),
      h.validate expected = .ok () →
        Response.decodeBody h body ≠ .error (.unknownResponseCode code)) ∧
    (∀ otherwise username, register env username = registerOr env otherwise username) ∧
    (∀ otherwise, exchangeKeys env = exchangeKeysOr env otherwise) ∧
    (∀ otherwise, reconnect env = reconnectOr env otherwise) ∧
    (∀ otherwise file content,
      uploadOnce env file content = uploadOnceOr env otherwise file content) ∧
    ∀ otherwise verdict file,
      sendVerdict env verdict file = sendVerdictOr env otherwise verdict file :=
  ⟨fun _ _ _ hv hb => ResponseHeader.decodeBody_of_validate hv hb,
    fun _ _ body code hv => ResponseHeader.decodeBody_ne_unknown hv body code,
    register_eq_registerOr env, exchangeKeys_eq_exchangeKeysOr env, reconnect_eq_reconnectOr env,
    uploadOnce_eq_uploadOnceOr env, sendVerdict_eq_sendVerdictOr env⟩

/-- A denial under a foreign version is read, and a key response of ten bytes is not. -/
theorem accepted_answers_fit_denied :
    ∃ (denied short : ResponseHeader) (p : ResponsePayload),
      denied = ⟨2, 2106, 16⟩ ∧ short = ⟨3, 2102, 10⟩ ∧
      denied.validate .reconnectionAccepted = .ok () ∧ short.validate .keyExchange = .ok () ∧
      ¬denied.IsShortForKey ∧ short.IsShortForKey ∧
      Response.decodeBody denied (List.replicate 20 7) = .ok p ∧ p.code = .reconnectionDenied ∧
      Response.decodeBody short (List.replicate 10 7) = .error (.truncatedPayload 16 10) ∧
      ∀ username, register inTurn username = registerOr inTurn (fun _ => Action.fail .timeout)
        username := by
  obtain ⟨hread, -, hregister, -⟩ := accepted_answers_fit inTurn
  have hdenied : ResponseHeader.validate ⟨2, 2106, 16⟩ .reconnectionAccepted = .ok () := by decide
  have hshort : ResponseHeader.validate ⟨3, 2102, 10⟩ .keyExchange = .ok () := by decide
  have hlong : ¬ResponseHeader.IsShortForKey ⟨2, 2106, 16⟩ := by
    simp [ResponseHeader.IsShortForKey]
  have hkey : ResponseHeader.IsShortForKey ⟨3, 2102, 10⟩ := ⟨.inl rfl, by decide⟩
  obtain ⟨p, hp, hcode, -⟩ := (hread _ _ (List.replicate 20 7) hdenied (by decide)).2 hlong
  have hpcode : p.code = .reconnectionDenied := by
    have hvalue := ResponseCode.ofValue?_value p.code
    rw [hcode] at hvalue
    exact (Option.some.inj hvalue).symm
  exact ⟨_, _, p, rfl, rfl, hdenied, hshort, hlong, hkey, hp, hpcode,
    (hread _ _ (List.replicate 10 7) hshort (by decide)).1 hkey, fun username => hregister _ username⟩

end Courier.Client
