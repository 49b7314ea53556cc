import Courier.Proofs.Client.Companions
import Courier.Proofs.Transport.Likeness

namespace Courier

open Courier.Action

/-- The same of an upload but for what the server repeats of it. -/
def Receipt.Alike (r s : Receipt) : Prop :=
  r.checksum = s.checksum

/-- The same delivery but for what the server repeats of it. -/
def Delivery.Alike (d e : Delivery) : Prop :=
  d.attempts = e.attempts ∧ d.checksum = e.checksum

inductive Reply.Alike : Reply → Reply → Prop where
  | id (id : ClientId) : Alike (.id id) (.id id)
  | done : Alike .done .done
  | delivery {d e : Delivery} : d.Alike e → Alike (.delivery d) (.delivery e)
  | receipt {r s : Receipt} : r.Alike s → Alike (.receipt r) (.receipt s)

namespace RoundTrip

/-- The same came of two round trips, but for what the answer has for information only. -/
inductive OutcomesAlike :
    Except Stop (Option ResponsePayload) → Except Stop (Option ResponsePayload) → Prop where
  | answered {p q : ResponsePayload} : p.Alike q → OutcomesAlike (.ok (some p)) (.ok (some q))
  | told : OutcomesAlike (.ok none) (.ok none)
  | stopped (stop : Stop) : OutcomesAlike (.error stop) (.error stop)

/-- The same was asked, in the same bytes, and the same came of it. -/
structure Alike (t u : RoundTrip) : Prop where
  request_eq : t.request = u.request
  sent_eq : t.left.map (·.stream.sent) = u.left.map (·.stream.sent)
  outcome : OutcomesAlike t.outcome u.outcome

end RoundTrip

inductive Act.Alike : Act → Act → Prop where
  | roundTrip {t u : RoundTrip} : t.Alike u → Alike (.roundTrip t) (.roundTrip u)
  | same (act : Act) : Alike act act

/-- Next to servers that differ in what is there for information only, all values correspond that are
the same, and besides all that the servers echo and repeat. -/
def Correspondence.likeness : Correspondence where
  publicKey := Eq
  privateKey := Eq
  symmetricKey := Eq
  sealed := Eq
  echoed _ _ := True
  repeated _ _ := True
  length_eq h := congrArg List.length h

namespace Correspondence

theorem identity_matches_likeness {i i' : Identity} : i.Matches likeness i' ↔ i = i' := by
  constructor
  · intro h
    cases h with
    | mk _ _ hkey =>
      cases hkey
      rfl
  · rintro rfl
    exact .mk _ _ rfl

theorem option_rel_eq_iff {α : Type} {x y : Option α} : Option.Rel Eq x y ↔ x = y := by
  constructor
  · intro h
    cases h with
    | none => rfl
    | some heq => rw [heq]
  · rintro rfl
    cases x with
    | none => exact .none
    | some a => exact .some rfl

theorem session_matches_likeness {s t : Session} : s.Matches likeness t ↔ s = t := by
  constructor
  · intro h
    cases h with
    | mk hpublic hprivate hsymmetric =>
      rw [← option_rel_eq_iff.mp hpublic, ← option_rel_eq_iff.mp hprivate,
        ← option_rel_eq_iff.mp hsymmetric]
  · rintro rfl
    exact .mk (option_rel_eq_iff.mpr rfl) (option_rel_eq_iff.mpr rfl) (option_rel_eq_iff.mpr rfl)

theorem eq_of_request_matches_likeness {r r' : Request} (h : r.Matches likeness r') : r = r' := by
  cases h with
  | same => rfl
  | sendPublicKey id name hkey =>
    cases hkey
    rfl
  | sendFile id file hcontent =>
    cases hcontent
    rfl

theorem matches_likeness_of_alike {p p' : ResponsePayload} (h : p.Alike p') :
    p.Matches likeness p' := by
  cases h with
  | registrationSuccess id => exact .registrationSuccess id
  | registrationFailure => exact .registrationFailure
  | keyExchange _ _ key => exact .keyExchange key trivial
  | fileDelivered _ _ _ _ _ _ checksum => exact .fileDelivered checksum trivial
  | messageDelivered id id' => exact .messageDelivered id id'
  | reconnectionAccepted _ _ key => exact .reconnectionAccepted key trivial
  | reconnectionDenied id id' => exact .reconnectionDenied id id'
  | serverError => exact .serverError

theorem alike_of_matches_likeness {x x' : Reply} (h : x.Matches likeness x') : x.Alike x' := by
  cases h with
  | id id => exact .id id
  | done => exact .done
  | delivery hd => exact .delivery ⟨hd.attempts_eq, hd.checksum_eq⟩
  | receipt hr => exact .receipt hr.checksum_eq

end Correspondence

section Surroundings

variable {ω ω' : Type}

/-- The same is answered in related worlds, which stay related. -/
def SameAnswer {α : Type} (W : ω → ω' → Prop) (ask : ω → α × ω) (ask' : ω' → α × ω') : Prop :=
  ∀ w w', W w w' → (ask w).1 = (ask' w').1 ∧ W (ask w).2 (ask' w').2

/-- In related worlds the surroundings do the same, but for what responses have for information
only. -/
structure Environment.Alike (W : ω → ω' → Prop) (env : Environment ω) (env' : Environment ω') :
    Prop where
  connect : ∀ w w', W w w' →
    Replies Stream.Alike (env.connect w).1 (env'.connect w').1 ∧
      W (env.connect w).2 (env'.connect w').2
  generateKeys : SameAnswer W env.generateKeys env'.generateKeys
  derivePublicKey : ∀ key, SameAnswer W (env.derivePublicKey key) (env'.derivePublicKey key)
  unwrapKey : ∀ key wrapped, SameAnswer W (env.unwrapKey key wrapped) (env'.unwrapKey key wrapped)
  encrypt : ∀ key content, SameAnswer W (env.encrypt key content) (env'.encrypt key content)
  loadIdentity : SameAnswer W env.loadIdentity env'.loadIdentity
  storeIdentity : ∀ identity,
    SameAnswer W (env.storeIdentity identity) (env'.storeIdentity identity)
  loadFile : ∀ path, SameAnswer W (env.loadFile path) (env'.loadFile path)
  timeouts_eq : env.timeouts = env'.timeouts
  maxRetries_eq : env.maxRetries = env'.maxRetries

end Surroundings

namespace Client

variable {ω ω' α β : Type} {W : ω → ω' → Prop} {env : Environment ω} {env' : Environment ω'}

/-- The clients have done the same and know the same. Their logs differ in no more than what is
reported for information only. -/
structure Alike (W : ω → ω' → Prop) (c : Client ω) (d : Client ω') : Prop where
  world : W c.world d.world
  clock_eq : c.clock = d.clock
  session_eq : c.session = d.session
  metrics_eq : c.metrics = d.metrics
  log_eq : c.log.filterMap Event.essence? = d.log.filterMap Event.essence?
  journal : List.Forall₂ Act.Alike c.journal d.journal

theorem alike_new {w : ω} {w' : ω'} (h : W w w') : Alike W (.new w) (.new w') :=
  ⟨h, rfl, rfl, rfl, rfl, .nil⟩

section Steps

theorem consult_keeps {ask : ω → Except TransferError α × ω}
    {ask' : ω' → Except TransferError α × ω'} (h : SameAnswer W ask ask')
    (act : Except TransferError α → Act) :
    Keeps (Alike W) Eq (consult ask act) (consult ask' act) := by
  intro c d hcd
  obtain ⟨hresult, hworld⟩ := h _ _ hcd.world
  unfold consult
  simp only [hresult]
  refine keeps_same (S := Alike W) (ask' d.world).1 _ _ ?_
  exact ⟨hworld, hcd.clock_eq, hcd.session_eq, hcd.metrics_eq, hcd.log_eq,
    List.rel_append hcd.journal (.cons (.same _) .nil)⟩

theorem report_keeps {e e' : Event} (he : e.essence? = e'.essence?) :
    Keeps (Alike W) Eq (report e : Action (Client ω) Unit) (report e') := by
  refine keeps_modify fun c d h => ⟨h.world, h.clock_eq, h.session_eq, h.metrics_eq, ?_, h.journal⟩
  simp only [List.filterMap_append, h.log_eq, List.filterMap_cons, he, List.filterMap_nil]

theorem count_keeps (step : Metrics → Metrics) :
    Keeps (Alike W) Eq (count step : Action (Client ω) Unit) (count step) :=
  keeps_modify fun _ _ h => ⟨h.world, h.clock_eq, h.session_eq, congrArg step h.metrics_eq,
    h.log_eq, h.journal⟩

theorem changeSession_keeps {f g : Session → Session} (hfg : ∀ s, f s = g s) :
    Keeps (Alike W) Eq (changeSession f : Action (Client ω) Unit) (changeSession g) := by
  apply keeps_modify
  intro c d h
  refine ⟨h.world, h.clock_eq, ?_, h.metrics_eq, h.log_eq, h.journal⟩
  change f c.session = g d.session
  rw [h.session_eq, hfg]

theorem Alike.absorb {c : Client ω} {d : Client ω'} {k l : Connection} (h : Alike W c d)
    (hkl : k.Similar l) : Alike W (c.absorb k) (d.absorb l) := by
  cases hkl with
  | mk _ _ hlog _ =>
    refine ⟨h.world, rfl, h.session_eq, ?_, ?_, h.journal⟩
    · simp only [Client.absorb, h.metrics_eq]
    · simp only [Client.absorb, List.filterMap_append, h.log_eq, hlog]

theorem Alike.conclude {c : Client ω} {d : Client ω'} {t u : RoundTrip} (h : Alike W c d)
    (ht : t.Alike u) : Alike W (c.conclude t) (d.conclude u) := by
  refine ⟨h.world, h.clock_eq, h.session_eq, ?_, h.log_eq,
    List.rel_append h.journal (.cons (.roundTrip ht) .nil)⟩
  obtain ⟨-, -, houtcome⟩ := ht
  unfold Client.conclude
  simp only
  generalize t.outcome = x at houtcome
  generalize u.outcome = y at houtcome
  cases houtcome with
  | answered _ => exact h.metrics_eq
  | told => exact h.metrics_eq
  | stopped stop =>
    cases stop with
    | failed e => exact congrArg Metrics.roundTripFailed h.metrics_eq
    | hung => exact h.metrics_eq

theorem opening_alike {s t : Stream} (h : s.Alike t) (clock : Nat) (timeouts : Timeouts)
    (metrics : Option Metrics) :
    Connection.Alike Response.Alike (.onStream s clock timeouts metrics)
      (.onStream t clock timeouts metrics) := by
  rw [h.eq]
  exact .mk h.reads rfl rfl h.bytes

/-- A conversation that comes to the same on connections alike comes to the same between clients
alike. -/
theorem converse_keeps (henv : env.Alike W env') (request : Request) {U : α → β → Prop}
    {talk : Action Connection α} {talk' : Action Connection β}
    {answer : α → Option ResponsePayload} {answer' : β → Option ResponsePayload}
    (htalk : Couples (Connection.Alike Response.Alike) talk talk'
      (fun a b k l => U a b ∧ k.Similar l) Connection.Similar)
    (hanswer : ∀ a b, U a b → RoundTrip.OutcomesAlike (.ok (answer a)) (.ok (answer' b))) :
    Keeps (Alike W) U (converse env request talk answer) (converse env' request talk' answer') := by
  intro c d h
  obtain ⟨hresult, hworld⟩ := henv.connect _ _ h.world
  have hstarted : Alike W
      { c with metrics := c.metrics.roundTripStarted, world := (env.connect c.world).2 }
      { d with metrics := d.metrics.roundTripStarted, world := (env'.connect d.world).2 } :=
    ⟨hworld, h.clock_eq, h.session_eq, congrArg Metrics.roundTripStarted h.metrics_eq, h.log_eq,
      h.journal⟩
  unfold converse
  simp only
  generalize env.connect c.world = x at hresult hstarted
  generalize env'.connect d.world = y at hresult hstarted
  obtain ⟨result, world⟩ := x
  obtain ⟨result', world'⟩ := y
  cases hresult with
  | error => exact .error (hstarted.conclude ⟨rfl, rfl, .stopped _⟩)
  | @ok s t hst =>
    have htalked := htalk _ _ (opening_alike hst c.clock env.timeouts
      (some c.metrics.roundTripStarted))
    simp only at hstarted ⊢
    rw [← h.clock_eq, ← henv.timeouts_eq, ← h.metrics_eq]
    rw [← h.metrics_eq] at hstarted
    generalize talk _ = r at htalked
    generalize talk' _ = r' at htalked
    cases htalked with
    | ok hv =>
      refine .ok ⟨hv.1, (hstarted.absorb hv.2).conclude ⟨rfl, ?_, hanswer _ _ hv.1⟩⟩
      exact congrArg some hv.2.sent_eq
    | error he =>
      refine .error ((hstarted.absorb he).conclude ⟨rfl, ?_, .stopped _⟩)
      exact congrArg some he.sent_eq

theorem ask_keeps (henv : env.Alike W env') (request : Request) (expected : ResponseCode) :
    Keeps (Alike W) ResponsePayload.Alike (ask env request expected) (ask env' request expected) :=
  converse_keeps henv request (Connection.ask_couples request expected) fun _ _ h => .answered h

theorem tell_keeps (henv : env.Alike W env') (request : Request) :
    Keeps (Alike W) Eq (tell env request) (tell env' request) :=
  converse_keeps henv request ((Connection.tell_keeps request).imp (fun _ _ h => h)
    (fun _ _ _ _ h => ⟨h.1, h.2.similar⟩) fun _ _ h => h.similar) fun _ _ _ => .told

/-- Whatever identity is echoed, no more comes of it than a report. -/
theorem noteEcho_eq (echoed : ClientId) (c : Client ω) :
    ∃ log, noteEcho echoed c = .ok () { c with log } ∧
      log.filterMap Event.essence? = c.log.filterMap Event.essence? := by
  have hrun : noteEcho echoed c = (if echoed ≠ c.session.id then
      report (.echoDiffers c.session.id echoed) else pure () : Action (Client ω) Unit) c := rfl
  rw [hrun]
  split
  · refine ⟨c.log ++ [.echoDiffers c.session.id echoed], rfl, ?_⟩
    rw [List.filterMap_append]
    exact List.append_nil _
  · exact ⟨c.log, rfl, rfl⟩

theorem noteEcho_keeps (echoed echoed' : ClientId) :
    Keeps (Alike W) Eq (noteEcho echoed : Action (Client ω) Unit) (noteEcho echoed') := by
  intro c d h
  obtain ⟨log, hc, hlog⟩ := noteEcho_eq echoed c
  obtain ⟨log', hd, hlog'⟩ := noteEcho_eq echoed' d
  rw [hc, hd]
  exact .ok ⟨rfl, h.world, h.clock_eq, h.session_eq, h.metrics_eq,
    hlog.trans (h.log_eq.trans hlog'.symm), h.journal⟩

end Steps

end Client

end Courier
