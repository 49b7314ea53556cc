import Courier.Proofs.Client.Companions
import Courier.Proofs.Client.Trips
import Courier.Proofs.Transport.Veil

namespace Courier

open Courier.Action

section Secrets

variable (K : PrivateKey → PrivateKey → Prop) (S : SymmetricKey → SymmetricKey → Prop)

/-- The same identity, but for its private key. -/
inductive Identity.Veiled : Identity → Identity → Prop where
  | mk (username : Name) (id : ClientId) {key key' : PrivateKey} :
    K key key' → Veiled ⟨username, id, key⟩ ⟨username, id, key'⟩

/-- The same session, but for its keys: it has the same ones of them. -/
inductive Session.Veiled (s : Session) : Session → Prop where
  | mk {publicKey : Option PublicKey} {privateKey : Option PrivateKey}
      {symmetricKey : Option SymmetricKey} :
    Option.Rel (fun _ _ => True) s.publicKey publicKey → Option.Rel K s.privateKey privateKey →
      Option.Rel S s.symmetricKey symmetricKey →
        Veiled s { s with publicKey, privateKey, symmetricKey }

/-- The same was asked, but for what is veiled, and the same came of it. What either peer was given
are the first bytes, as many of them, of what goes over the stream for either request. -/
inductive RoundTrip.Veiled : RoundTrip → RoundTrip → Prop where
  | unconnected {r r' : Request} {e : TransferError} :
    r.Veiled r' → Veiled ⟨r, .error e, none, .error (.failed e)⟩ ⟨r', .error e, none, .error (.failed e)⟩
  | connected {r r' : Request} {k left left' : Connection}
      {y : Except Stop (Option ResponsePayload)} :
    r.Veiled r' →
      left.VeiledWithin (k.stream.sent ++ r.frames) (k.stream.sent ++ r'.frames) left' →
        Veiled ⟨r, .ok k, some left, y⟩ ⟨r', .ok k, some left', y⟩

/-- The same was done, and the same came of it, but for the bytes of secrets. -/
inductive Act.Veiled : Act → Act → Prop where
  | roundTrip {t u : RoundTrip} : t.Veiled u → Veiled (.roundTrip t) (.roundTrip u)
  | generatedKeys {y y' : Except TransferError (PublicKey × PrivateKey)} :
    Replies (fun keys keys' => K keys.2 keys'.2) y y' → Veiled (.generatedKeys y) (.generatedKeys y')
  | derivedPublicKey {key key' : PrivateKey} {y y' : Except TransferError PublicKey} :
    K key key' → Replies (fun _ _ => True) y y' →
      Veiled (.derivedPublicKey key y) (.derivedPublicKey key' y')
  | unwrappedKey {key key' : PrivateKey} {wrapped : Bytes} {y y' : Except TransferError Bytes} :
    K key key' → Replies (fun material material' => material.length = material'.length) y y' →
      Veiled (.unwrappedKey key wrapped y) (.unwrappedKey key' wrapped y')
  | encrypted {key key' : SymmetricKey} {content : Bytes} {y y' : Except TransferError Bytes} :
    S key key' → Replies (fun text text' => text.length = text'.length) y y' →
      Veiled (.encrypted key content y) (.encrypted key' content y')
  | loadedIdentity {y y' : Except TransferError (Option Identity)} :
    Replies (Option.Rel (Identity.Veiled K)) y y' → Veiled (.loadedIdentity y) (.loadedIdentity y')
  | storedIdentity {identity identity' : Identity} (y : Except TransferError Unit) :
    identity.Veiled K identity' → Veiled (.storedIdentity identity y) (.storedIdentity identity' y)
  | loadedFile (path : Bytes) (y : Except TransferError Bytes) :
    Veiled (.loadedFile path y) (.loadedFile path y)

end Secrets

section Surroundings

variable {ω ω' α β : Type}

/-- What is answered in related worlds is related, and so are the worlds then. -/
def Answers (W : ω → ω' → Prop) (U : α → β → Prop) (ask : ω → Except TransferError α × ω)
    (ask' : ω' → Except TransferError β × ω') : Prop :=
  ∀ w w', W w w' → Replies U (ask w).1 (ask' w').1 ∧ W (ask w).2 (ask' w').2

/-- The surroundings are the same but for secrets. Asked about secrets that correspond, both fail with
the same cause, or both succeed with secrets that correspond and are of one length. -/
structure Environment.Veiled (K : PrivateKey → PrivateKey → Prop)
    (S : SymmetricKey → SymmetricKey → Prop) (W : ω → ω' → Prop) (env : Environment ω)
    (env' : Environment ω') : Prop where
  connect : Answers W Eq env.connect env'.connect
  generateKeys : Answers W (fun keys keys' => K keys.2 keys'.2) env.generateKeys env'.generateKeys
  derivePublicKey : ∀ key key', K key key' →
    Answers W (fun _ _ => True) (env.derivePublicKey key) (env'.derivePublicKey key')
  unwrapKey : ∀ key key' wrapped, K key key' →
    Answers W (fun material material' => material.length = material'.length ∧
      ∀ k k', SymmetricKey.ofBytes material = .ok k → SymmetricKey.ofBytes material' = .ok k' → S k k')
      (env.unwrapKey key wrapped) (env'.unwrapKey key' wrapped)
  encrypt : ∀ key key' content, S key key' →
    Answers W (fun text text' => text.length = text'.length) (env.encrypt key content)
      (env'.encrypt key' content)
  loadIdentity : Answers W (Option.Rel (Identity.Veiled K)) env.loadIdentity env'.loadIdentity
  storeIdentity : ∀ identity identity', identity.Veiled K identity' →
    Answers W Eq (env.storeIdentity identity) (env'.storeIdentity identity')
  loadFile : ∀ path, Answers W Eq (env.loadFile path) (env'.loadFile path)
  timeouts_eq : env.timeouts = env'.timeouts
  maxRetries_eq : env.maxRetries = env'.maxRetries

end Surroundings

section Matching

variable {K : PrivateKey → PrivateKey → Prop} {S : SymmetricKey → SymmetricKey → Prop}

theorem Session.veiled_new : new.Veiled K S new :=
  .mk .none .none .none

/-- Next to surroundings that differ in no more than secrets, all values correspond that are the same,
and besides keys and encrypted contents. -/
def Correspondence.veil (K : PrivateKey → PrivateKey → Prop)
    (S : SymmetricKey → SymmetricKey → Prop) : Correspondence where
  publicKey _ _ := True
  privateKey := K
  symmetricKey := S
  sealed content content' := content.length = content'.length
  echoed := Eq
  repeated := Eq
  length_eq := id

namespace Correspondence

theorem identity_matches_veil {i i' : Identity} :
    i.Matches (veil K S) i' ↔ i.Veiled K i' := by
  constructor
  · intro h
    cases h with
    | mk username id hkey => exact .mk username id hkey
  · intro h
    cases h with
    | mk username id hkey => exact .mk username id hkey

theorem session_matches_veil {s t : Session} : s.Matches (veil K S) t ↔ s.Veiled K S t := by
  constructor
  · intro h
    cases h with
    | mk hpublic hprivate hsymmetric => exact .mk hpublic hprivate hsymmetric
  · intro h
    cases h with
    | mk hpublic hprivate hsymmetric => exact .mk hpublic hprivate hsymmetric

theorem request_veiled_of_matches_veil {r r' : Request} (h : r.Matches (veil K S) r') :
    r.Veiled r' := by
  cases h with
  | same => exact .same r
  | sendPublicKey id name hkey => exact .sendPublicKey id name _ _
  | sendFile id file hlength => exact .sendFile id file hlength

theorem payload_matches_veil (p : ResponsePayload) : p.Matches (veil K S) p := by
  cases p with
  | registrationSuccess id => exact .registrationSuccess id
  | registrationFailure => exact .registrationFailure
  | keyExchange id key => exact .keyExchange key rfl
  | fileDelivered id contentSize file checksum => exact .fileDelivered checksum rfl
  | messageDelivered id => exact .messageDelivered id id
  | reconnectionAccepted id key => exact .reconnectionAccepted key rfl
  | reconnectionDenied id => exact .reconnectionDenied id id
  | serverError => exact .serverError

theorem eq_of_reply_matches_veil {x x' : Reply} (h : x.Matches (veil K S) x') : x = x' := by
  cases h with
  | id | done => rfl
  | @delivery d e hd =>
    obtain ⟨hrepeated, hattempts, hchecksum⟩ := hd
    obtain ⟨hfile, hsize⟩ := Prod.mk.inj hrepeated
    cases d
    cases e
    simp_all
  | @receipt r s hr =>
    obtain ⟨hrepeated, hchecksum⟩ := hr
    obtain ⟨hfile, hsize⟩ := Prod.mk.inj hrepeated
    cases r
    cases s
    simp_all

end Correspondence

end Matching

namespace Client

variable {ω ω' α β : Type} {K : PrivateKey → PrivateKey → Prop}
  {S : SymmetricKey → SymmetricKey → Prop} {W : ω → ω' → Prop} {env : Environment ω}
  {env' : Environment ω'}

/-- The clients differ in no more than the bytes of secrets, now and in all that they have done. -/
structure Veiled (K : PrivateKey → PrivateKey → Prop) (S : SymmetricKey → SymmetricKey → Prop)
    (W : ω → ω' → Prop) (c : Client ω) (d : Client ω') : Prop where
  world : W c.world d.world
  clock_eq : c.clock = d.clock
  session : c.session.Veiled K S d.session
  metrics_eq : c.metrics = d.metrics
  log_eq : c.log = d.log
  journal : List.Forall₂ (Act.Veiled K S) c.journal d.journal

theorem veiled_new {w : ω} {w' : ω'} (h : W w w') : Veiled K S W (.new w) (.new w') :=
  ⟨h, rfl, Session.veiled_new, rfl, rfl, .nil⟩

section Steps

theorem consult_veiled {ask : ω → Except TransferError α × ω}
    {ask' : ω' → Except TransferError β × ω'} {U : α → β → Prop} (h : Answers W U ask ask')
    {act : Except TransferError α → Act} {act' : Except TransferError β → Act}
    (hact : ∀ y y', Replies U y y' → (act y).Veiled K S (act' y')) :
    Keeps (Veiled K S W) U (consult ask act) (consult ask' act') := by
  intro c d hcd
  obtain ⟨hresult, hworld⟩ := h _ _ hcd.world
  unfold consult
  exact keeps_ofExcept hresult _ _ ⟨hworld, hcd.clock_eq, hcd.session, hcd.metrics_eq, hcd.log_eq,
    List.rel_append hcd.journal (.cons (hact _ _ hresult) .nil)⟩

theorem report_veiled (e : Event) :
    Keeps (Veiled K S W) Eq (report e : Action (Client ω) Unit) (report e) :=
  keeps_modify fun _ _ h => ⟨h.world, h.clock_eq, h.session, h.metrics_eq,
    congrArg (· ++ [e]) h.log_eq, h.journal⟩

theorem count_veiled (step : Metrics → Metrics) :
    Keeps (Veiled K S W) Eq (count step : Action (Client ω) Unit) (count step) :=
  keeps_modify fun _ _ h => ⟨h.world, h.clock_eq, h.session, congrArg step h.metrics_eq, h.log_eq,
    h.journal⟩

theorem changeSession_veiled {f g : Session → Session}
    (hfg : ∀ s t, s.Veiled K S t → (f s).Veiled K S (g t)) :
    Keeps (Veiled K S W) Eq (changeSession f : Action (Client ω) Unit) (changeSession g) :=
  keeps_modify fun _ _ h => ⟨h.world, h.clock_eq, hfg _ _ h.session, h.metrics_eq, h.log_eq,
    h.journal⟩

theorem Veiled.absorb {c : Client ω} {d : Client ω'} {k l : Connection} (h : Veiled K S W c d)
    {p p' : Bytes} (hkl : k.VeiledWithin p p' l) : Veiled K S W (c.absorb k) (d.absorb l) := by
  obtain ⟨_, _, -, -, hkl⟩ := hkl
  cases hkl with
  | mk =>
    refine ⟨h.world, rfl, h.session, ?_, ?_, h.journal⟩
    · simp only [Client.absorb, h.metrics_eq]
    · simp only [Client.absorb, h.log_eq]

theorem Veiled.conclude {c : Client ω} {d : Client ω'} {t u : RoundTrip} (h : Veiled K S W c d)
    (ht : t.Veiled u) : Veiled K S W (c.conclude t) (d.conclude u) := by
  refine ⟨h.world, h.clock_eq, h.session, ?_, h.log_eq,
    List.rel_append h.journal (.cons (.roundTrip ht) .nil)⟩
  have houtcome : t.outcome = u.outcome := by cases ht <;> rfl
  unfold Client.conclude
  simp only [houtcome, h.metrics_eq]

/-- A conversation that comes to the same on connections that are veiled comes to the same between
clients that are. -/
theorem converse_veiled (henv : env.Veiled K S W env') {r r' : Request} (hr : r.Veiled r')
    {talk talk' : Action Connection α} {answer : α → Option ResponsePayload}
    (htalk : ∀ p, Couples (Connection.Veiled p p) talk talk'
      (fun a b k l => a = b ∧ k.VeiledWithin (p ++ r.frames) (p ++ r'.frames) l)
      (Connection.VeiledWithin (p ++ r.frames) (p ++ r'.frames))) :
    Keeps (Veiled K S W) Eq (converse env r talk answer) (converse env' r' talk' answer) := by
  intro c d h
  obtain ⟨hresult, hworld⟩ := henv.connect _ _ h.world
  have hstarted : Veiled K S W
      { c with metrics := c.metrics.roundTripStarted, world := (env.connect c.world).2 }
      { d with metrics := d.metrics.roundTripStarted, world := (env'.connect d.world).2 } :=
    ⟨hworld, h.clock_eq, h.session, congrArg Metrics.roundTripStarted h.metrics_eq, h.log_eq,
      h.journal⟩
  unfold converse
  simp only
  generalize env.connect c.world = x at hresult hstarted
  generalize env'.connect d.world = y at hresult hstarted
  obtain ⟨result, world⟩ := x
  obtain ⟨result', world'⟩ := y
  cases hresult with
  | error => exact .error (hstarted.conclude (.unconnected hr))
  | @ok s t hst =>
    subst hst
    let k := Connection.onStream s c.clock env.timeouts (some c.metrics.roundTripStarted)
    have hposted : k.posted = s.sent := List.append_nil _
    have htalked := htalk s.sent k k (hposted ▸ Connection.veiled_self k)
    simp only at hstarted ⊢
    rw [← h.clock_eq, ← henv.timeouts_eq, ← h.metrics_eq]
    rw [← h.metrics_eq] at hstarted
    generalize talk k = x at htalked
    generalize talk' k = y at htalked
    cases htalked with
    | ok hv =>
      obtain ⟨rfl, hwithin⟩ := hv
      exact .ok ⟨rfl, (hstarted.absorb hwithin).conclude (.connected hr hwithin)⟩
    | error hwithin => exact .error ((hstarted.absorb hwithin).conclude (.connected hr hwithin))

theorem ask_veiled (henv : env.Veiled K S W env') {r r' : Request} (hr : r.Veiled r')
    (expected : ResponseCode) :
    Keeps (Veiled K S W) Eq (ask env r expected) (ask env' r' expected) :=
  converse_veiled henv hr fun _ => Connection.ask_veiled hr expected

theorem tell_veiled (henv : env.Veiled K S W env') {r r' : Request} (hr : r.Veiled r') :
    Keeps (Veiled K S W) Eq (tell env r) (tell env' r') :=
  converse_veiled henv hr fun _ => Connection.tell_veiled hr

theorem noteEcho_veiled (echoed : ClientId) :
    Keeps (Veiled K S W) Eq (noteEcho echoed : Action (Client ω) Unit) (noteEcho echoed) := by
  apply keeps_get_bind
  intro c d h
  have hid : c.session.id = d.session.id := by
    have hsession := h.session
    generalize d.session = t at hsession
    cases hsession
    rfl
  simp only [hid]
  split
  · exact report_veiled _
  · exact keeps_pure rfl

end Steps

end Client

end Courier
