import Courier.Client.SessionKey
import Courier.Proofs.Client.Deeds

namespace Courier

namespace RoundTrip

/-- The answer brings a session key, wrapped for the client. -/
inductive BringsKey (trip : RoundTrip) (wrapped : Bytes) : Prop where
  | exchanged {id echoed : ClientId} {name : Name} {key : PublicKey} :
    trip.request = .sendPublicKey id name key →
      trip.outcome = .ok (some (.keyExchange echoed wrapped)) → BringsKey trip wrapped
  | recognised {id echoed : ClientId} {name : Name} :
    trip.request = .reconnect id name →
      trip.outcome = .ok (some (.reconnectionAccepted echoed wrapped)) → BringsKey trip wrapped

/-- The server answers that it does not recognise the client. -/
def IsDenied (trip : RoundTrip) : Prop :=
  ∃ echoed, trip.outcome = .ok (some (.reconnectionDenied echoed))

end RoundTrip

namespace Deed

/-- An echoed identity is told if it is not the session's own. -/
def echo (s : Session) (echoed : ClientId) : List Deed :=
  if echoed ≠ s.id then [.told (.echoDiffers s.id echoed)] else []

@[simp] theorem acts_echo (s : Session) (echoed : ClientId) : acts (echo s echoed) = [] := by
  unfold echo
  split <;> rfl

@[simp] theorem gains_echo (s : Session) (echoed : ClientId) : gains (echo s echoed) = 0 := by
  unfold echo
  split
  · exact Metrics.zero_add 0
  · rfl

@[simp] theorem left_echo (s t : Session) (echoed : ClientId) : left t (echo s echoed) = t := by
  unfold echo
  split <;> rfl

end Deed

namespace Client

open Courier.Action

variable {ω : Type} {env : Environment ω} {s : Session}

/-- What comes of a wrapped session key. -/
inductive TakeCourse (s : Session) (wrapped : Bytes) : List Deed → Except Stop Unit → Prop where
  | ownerless {echoed : ClientId} {e : TransferError} :
    s.requirePrivateKey = .error e →
      TakeCourse s wrapped (Deed.echo s echoed ++ [.told (.keyDiscarded e), .changed s.dropKey])
        (.error (.failed e))
  | unusable {echoed : ClientId} {privateKey : PrivateKey} {y : Except TransferError Bytes}
      {e : TransferError} :
    s.requirePrivateKey = .ok privateKey → y >>= SymmetricKey.ofBytes = .error e →
      TakeCourse s wrapped
        (Deed.echo s echoed ++ [.noted (.unwrappedKey privateKey wrapped y),
          .told (.keyDiscarded e), .changed s.dropKey])
        (.error (.failed e))
  | installed {echoed : ClientId} {privateKey : PrivateKey} {key : SymmetricKey} {news : Event} :
    s.requirePrivateKey = .ok privateKey →
      TakeCourse s wrapped
        (Deed.echo s echoed ++ [.noted (.unwrappedKey privateKey wrapped (.ok key.bytes)),
          .changed (s.installKey key), .counted (0 : Metrics).keyInstalled, .told news])
        (.ok ())

/-- What comes of a request for a session key. -/
inductive KeyCourse (s : Session) (request : Request) : List Deed → Except Stop Unit → Prop where
  | lost {trip : RoundTrip} {stop : Stop} :
    trip.request = request → trip.outcome = .error stop →
      KeyCourse s request [.noted (.roundTrip trip)] (.error stop)
  | denied {trip : RoundTrip} {id : ClientId} {name : Name} :
    trip.request = request → request = .reconnect id name → trip.IsDenied →
      KeyCourse s request
        [.noted (.roundTrip trip), .changed s.deny, .told .reconnectionDenied]
        (.error (.failed .reconnectionDenied))
  | taken {trip : RoundTrip} {wrapped : Bytes} {deeds : List Deed} {y : Except Stop Unit} :
    trip.request = request → trip.BringsKey wrapped → TakeCourse s wrapped deeds y →
      KeyCourse s request (.noted (.roundTrip trip) :: deeds) y

/-- Where the public key that is sent comes from. -/
inductive KeySource (s : Session) : List Deed → Except Stop PublicKey → Prop where
  | cached {key : PublicKey} : s.publicKey = some key → KeySource s [] (.ok key)
  | ownerless {e : TransferError} :
    s.publicKey = none → s.requirePrivateKey = .error e → KeySource s [] (.error (.failed e))
  | underived {privateKey : PrivateKey} {e : TransferError} :
    s.publicKey = none → s.requirePrivateKey = .ok privateKey →
      KeySource s [.noted (.derivedPublicKey privateKey (.error e))] (.error (.failed e))
  | derived {privateKey : PrivateKey} {key : PublicKey} :
    s.publicKey = none → s.requirePrivateKey = .ok privateKey →
      KeySource s
        [.noted (.derivedPublicKey privateKey (.ok key)), .changed (s.withPublicKey key)] (.ok key)

/-- What comes of an exchange of keys. -/
inductive ExchangeCourse (s : Session) : List Deed → Except Stop Unit → Prop where
  | unregistered : s.id.isAssigned = false → ExchangeCourse s [] (.error (.failed .notRegistered))
  | unasked {deeds : List Deed} {stop : Stop} :
    s.id.isAssigned → KeySource s deeds (.error stop) → ExchangeCourse s deeds (.error stop)
  | asked {ds es : List Deed} {key : PublicKey} {y : Except Stop Unit} :
    s.id.isAssigned → KeySource s ds (.ok key) →
      KeyCourse (Deed.left s ds) (.sendPublicKey s.id (Deed.left s ds).username key) es y →
        ExchangeCourse s (ds ++ es) y

/-- What comes of a reconnection. -/
inductive ReconnectCourse (s : Session) : List Deed → Except Stop Unit → Prop where
  | unregistered : s.id.isAssigned = false → ReconnectCourse s [] (.error (.failed .notRegistered))
  | asked {deeds : List Deed} {y : Except Stop Unit} :
    s.id.isAssigned → KeyCourse s (.reconnect s.id s.username) deeds y → ReconnectCourse s deeds y

theorem noteEcho_follows {C : List Deed → Except Stop Unit → Prop} {echoed : ClientId}
    {f : Unit → Action (Client ω) Unit}
    (h : Follows env (f ()) s fun deeds y => C (Deed.echo s echoed ++ deeds) y) :
    Follows env (noteEcho echoed >>= f) s C := by
  unfold noteEcho
  rw [bind_assoc]
  apply follows_get_bind
  rintro c rfl
  unfold Deed.echo at h
  simp only
  split
  · rename_i hdiffers
    rw [if_pos hdiffers] at h
    exact follows_report_bind (by nofun) h
  · rename_i hsame
    rw [if_neg hsame] at h
    exact h

/-- What comes of unwrapping a key, to be handed on. -/
inductive UnwrapCourse (s : Session) (wrapped : Bytes) :
    List Deed → Except TransferError SymmetricKey → Prop where
  | ownerless {e : TransferError} :
    s.requirePrivateKey = .error e → UnwrapCourse s wrapped [] (.error e)
  | asked {privateKey : PrivateKey} {y : Except TransferError Bytes} :
    s.requirePrivateKey = .ok privateKey →
      UnwrapCourse s wrapped [.noted (.unwrappedKey privateKey wrapped y)]
        (y >>= SymmetricKey.ofBytes)

theorem unwrapKey_follows (s : Session) (wrapped : Bytes) :
    Follows env (unwrapKey env wrapped) s fun deeds y =>
      ∃ r : Except TransferError SymmetricKey, y = r.mapError .failed ∧
        UnwrapCourse s wrapped deeds r := by
  apply follows_require_bind
  · intro e he
    exact ⟨.error e, rfl, .ownerless he⟩
  · intro privateKey hprivate
    refine follows_consult_bind (fun _ => rfl) (fun _ => rfl) ?_ ?_
    · intro e
      exact ⟨.error e, rfl, .asked (y := .error e) hprivate⟩
    · intro material
      exact follows_ofExcept ⟨_, rfl, .asked (y := .ok material) hprivate⟩

theorem ofBytes_eq_ok {y : Except TransferError Bytes} {key : SymmetricKey}
    (h : y >>= SymmetricKey.ofBytes = .ok key) : y = .ok key.bytes := by
  obtain ⟨material, rfl, hkey⟩ := bind_eq_ok.mp h
  unfold SymmetricKey.ofBytes at hkey
  split at hkey
  · cases hkey
    rfl
  · cases hkey

theorem takeKey_follows (s : Session) (echoed : ClientId) (wrapped : Bytes) {news : Event}
    (hnews : ∀ m, news ≠ .metricsSnapshot m) :
    Follows env (takeKey env echoed wrapped news) s (TakeCourse s wrapped) := by
  apply noteEcho_follows
  unfold installKey
  rw [bind_assoc]
  apply (unwrapKey_follows s wrapped).attempt_bind
  · rintro deeds ⟨r, hr, -⟩
    cases r <;> cases hr
  · rintro r deeds ⟨r', hr, hcourse⟩
    obtain rfl := mapError_failed_inj hr
    clear hr
    cases r' with
    | ok key =>
      simp only [bind_assoc]
      apply follows_changeSession_bind
      refine follows_count_bind (fun m => m.keyInstalled_eq) ?_
      apply follows_of_bind_pure
      apply follows_report_bind hnews
      apply follows_pure
      generalize hz : (.ok key : Except TransferError SymmetricKey) = z at hcourse
      cases hcourse with
      | ownerless => cases hz
      | asked hprivate =>
        rw [ofBytes_eq_ok hz.symm]
        exact .installed hprivate
    | error e =>
      simp only [bind_assoc]
      apply follows_report_bind (by nofun)
      apply follows_changeSession_bind
      apply follows_fail_bind
      generalize hz : (.error e : Except TransferError SymmetricKey) = z at hcourse
      cases hcourse with
      | ownerless he =>
        cases hz
        exact .ownerless he
      | asked hprivate => exact .unusable hprivate hz.symm

theorem sendKey_follows (s : Session) (id : ClientId) (name : Name) (key : PublicKey) :
    Follows env (sendKeyOr env (refuse .keyExchange) (.sendPublicKey id name key)) s
      (KeyCourse s (.sendPublicKey id name key)) := by
  apply follows_ask_bind rfl
  · intro trip stop hrequest houtcome
    exact .lost hrequest houtcome
  · intro trip p hrequest houtcome hcode
    cases p with
    | keyExchange echoed wrapped =>
      apply (takeKey_follows s echoed wrapped (by nofun)).mono
      intro deeds y htake
      exact .taken hrequest (.exchanged hrequest houtcome) htake
    | _ => simp [ResponsePayload.code, ResponseCode.substitute?] at hcode

theorem publicKey_follows (s : Session) : Follows env (publicKey env) s (KeySource s) := by
  apply follows_get_bind
  rintro c rfl
  split
  · rename_i key hkey
    exact follows_pure (.cached hkey)
  · rename_i hnone
    apply follows_require_bind
    · intro e he
      exact .ownerless hnone he
    · intro privateKey hprivate
      refine follows_consult_bind (fun _ => rfl) (fun _ => rfl) ?_ ?_
      · intro e
        exact .underived hnone hprivate
      · intro key
        apply follows_changeSession_bind
        exact follows_pure (.derived hnone hprivate)

/-- What needs an identity is not begun without one. -/
theorem follows_requireId_bind {α : Type} {C : List Deed → Except Stop α → Prop}
    {f : ClientId → Action (Client ω) α}
    (hnone : s.id.isAssigned = false → C [] (.error (.failed .notRegistered)))
    (hsome : s.id.isAssigned → Follows env (f s.id) s C) :
    Follows env (require (·.requireId) >>= f) s C := by
  cases hid : s.id.isAssigned with
  | false =>
    have hrequire : s.requireId = .error .notRegistered := if_neg (by rw [hid]; nofun)
    apply follows_require_bind
    · intro e he
      cases hrequire.symm.trans he
      exact hnone hid
    · intro id he
      cases hrequire.symm.trans he
  | true =>
    have hrequire : s.requireId = .ok s.id := if_pos hid
    apply follows_require_bind
    · intro e he
      cases hrequire.symm.trans he
    · intro id he
      cases hrequire.symm.trans he
      exact hsome hid

theorem exchangeKeys_follows (s : Session) :
    Follows env (exchangeKeys env) s (ExchangeCourse s) := by
  apply follows_requireId_bind
  · exact .unregistered
  · intro hid
    apply (publicKey_follows s).bind
    · intro stop deeds hsource
      exact .unasked hid hsource
    · intro key ds hsource
      apply follows_get_bind
      intro c hs
      rw [hs]
      apply (sendKey_follows _ _ _ _).mono
      intro es y hcourse
      exact .asked hid hsource hcourse

theorem reconnect_follows (s : Session) : Follows env (reconnect env) s (ReconnectCourse s) := by
  apply follows_requireId_bind
  · exact .unregistered
  · intro hid
    apply follows_get_bind
    rintro c rfl
    apply follows_ask_bind rfl
    · intro trip stop hrequest houtcome
      exact .asked hid (.lost hrequest houtcome)
    · intro trip p hrequest houtcome hcode
      cases p with
      | reconnectionAccepted echoed wrapped =>
        apply (takeKey_follows _ echoed wrapped (by nofun)).mono
        intro deeds y htake
        exact .asked hid (.taken hrequest (.recognised hrequest houtcome) htake)
      | reconnectionDenied echoed =>
        apply follows_changeSession_bind
        apply follows_report_bind (by nofun)
        exact follows_fail (.asked hid (.denied hrequest rfl ⟨echoed, houtcome⟩))
      | _ => simp [ResponsePayload.code, ResponseCode.substitute?] at hcode

end Client

end Courier
