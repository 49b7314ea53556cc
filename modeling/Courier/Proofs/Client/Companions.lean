import Courier.Client.Operation
import Courier.Proofs.Coupling

namespace Courier

open Courier.Action

/-- Which values of two clients correspond. -/
structure Correspondence where
  publicKey : PublicKey → PublicKey → Prop
  privateKey : PrivateKey → PrivateKey → Prop
  symmetricKey : SymmetricKey → SymmetricKey → Prop
  /-- Encrypted contents. -/
  sealed : Bytes → Bytes → Prop
  /-- Identities that the server echoes. -/
  echoed : ClientId → ClientId → Prop
  /-- The name and the size of an upload that the server repeats. -/
  repeated : Name × UInt32 → Name × UInt32 → Prop
  length_eq : ∀ {content content'}, sealed content content' → content.length = content'.length

section Values

variable (C : Correspondence)

inductive Identity.Matches : Identity → Identity → Prop where
  | mk (username : Name) (id : ClientId) {key key' : PrivateKey} :
    C.privateKey key key' → Matches ⟨username, id, key⟩ ⟨username, id, key'⟩

/-- Sessions that have the same keys, which correspond, and else are the same. -/
inductive Session.Matches (s : Session) : Session → Prop where
  | mk {publicKey : Option PublicKey} {privateKey : Option PrivateKey}
      {symmetricKey : Option SymmetricKey} :
    Option.Rel C.publicKey s.publicKey publicKey → Option.Rel C.privateKey s.privateKey privateKey →
      Option.Rel C.symmetricKey s.symmetricKey symmetricKey →
        Matches s { s with publicKey, privateKey, symmetricKey }

inductive Request.Matches : Request → Request → Prop where
  | same (r : Request) : Matches r r
  | sendPublicKey (id : ClientId) (name : Name) {key key' : PublicKey} :
    C.publicKey key key' → Matches (.sendPublicKey id name key) (.sendPublicKey id name key')
  | sendFile (id : ClientId) (file : Name) {content content' : Bytes} :
    C.sealed content content' → Matches (.sendFile id file content) (.sendFile id file content')

inductive ResponsePayload.Matches : ResponsePayload → ResponsePayload → Prop where
  | registrationSuccess (id : ClientId) :
    Matches (.registrationSuccess id) (.registrationSuccess id)
  | registrationFailure : Matches .registrationFailure .registrationFailure
  | keyExchange {id id' : ClientId} (key : Bytes) :
    C.echoed id id' → Matches (.keyExchange id key) (.keyExchange id' key)
  | fileDelivered {id id' : ClientId} {contentSize contentSize' : UInt32} {file file' : Name}
      (checksum : UInt32) :
    C.repeated (file, contentSize) (file', contentSize') →
      Matches (.fileDelivered id contentSize file checksum)
        (.fileDelivered id' contentSize' file' checksum)
  | messageDelivered (id id' : ClientId) : Matches (.messageDelivered id) (.messageDelivered id')
  | reconnectionAccepted {id id' : ClientId} (key : Bytes) :
    C.echoed id id' → Matches (.reconnectionAccepted id key) (.reconnectionAccepted id' key)
  | reconnectionDenied (id id' : ClientId) :
    Matches (.reconnectionDenied id) (.reconnectionDenied id')
  | serverError : Matches .serverError .serverError

structure Receipt.Matches (r s : Receipt) : Prop where
  repeated : C.repeated (r.file, r.contentSize) (s.file, s.contentSize)
  checksum_eq : r.checksum = s.checksum

structure Delivery.Matches (d e : Delivery) : Prop where
  repeated : C.repeated (d.file, d.contentSize) (e.file, e.contentSize)
  attempts_eq : d.attempts = e.attempts
  checksum_eq : d.checksum = e.checksum

inductive Reply.Matches : Reply → Reply → Prop where
  | id (id : ClientId) : Matches (.id id) (.id id)
  | done : Matches .done .done
  | delivery {d e : Delivery} : d.Matches C e → Matches (.delivery d) (.delivery e)
  | receipt {r s : Receipt} : r.Matches C s → Matches (.receipt r) (.receipt s)

end Values

/-- Encrypted contents that correspond are too large alike. -/
theorem Request.upload_matches {C : Correspondence} (id : ClientId) (file : Name)
    {content content' : Bytes} (h : C.sealed content content') :
    Replies (Request.Matches C) (upload id file content) (upload id file content') := by
  have hheader : (sendFile id file content).header = (sendFile id file content').header := by
    unfold header payloadSize contentSize
    simp only [C.length_eq h]
    rfl
  unfold upload
  rw [hheader]
  cases (sendFile id file content').header with
  | error e => exact .error
  | ok header => exact .ok (.sendFile id file h)

namespace Session

variable {C : Correspondence} {s t : Session}

theorem Matches.username_eq (h : s.Matches C t) : s.username = t.username := by
  cases h
  rfl

theorem Matches.publicKey (h : s.Matches C t) : Option.Rel C.publicKey s.publicKey t.publicKey := by
  cases h with
  | mk hpublic => exact hpublic

theorem matches_restore {identity identity' : Identity} (h : identity.Matches C identity') :
    (restore identity).Matches C (restore identity') := by
  cases h with
  | mk _ _ hkey => exact .mk .none (.some hkey) .none

theorem Matches.requireId (h : s.Matches C t) : Replies Eq s.requireId t.requireId := by
  cases h
  exact .same _

theorem Matches.requirePrivateKey (h : s.Matches C t) :
    Replies C.privateKey s.requirePrivateKey t.requirePrivateKey := by
  cases h with
  | mk _ hprivate _ =>
    unfold Session.requirePrivateKey
    generalize s.privateKey = x at hprivate
    cases hprivate with
    | none => exact .error
    | some hkey => exact .ok hkey

theorem Matches.requireSymmetricKey (h : s.Matches C t) :
    Replies C.symmetricKey s.requireSymmetricKey t.requireSymmetricKey := by
  cases h with
  | mk _ _ hsymmetric =>
    unfold Session.requireSymmetricKey
    generalize s.symmetricKey = x at hsymmetric
    cases hsymmetric with
    | none => exact .error
    | some hkey => exact .ok hkey

theorem Matches.adopt (h : s.Matches C t) {identity identity' : Identity}
    (hidentity : identity.Matches C identity') {key key' : PublicKey} (hkey : C.publicKey key key') :
    (s.adopt identity key).Matches C (t.adopt identity' key') := by
  cases h
  cases hidentity with
  | mk _ _ hprivate => exact .mk (.some hkey) (.some hprivate) .none

theorem Matches.withPublicKey (h : s.Matches C t) {key key' : PublicKey}
    (hkey : C.publicKey key key') : (s.withPublicKey key).Matches C (t.withPublicKey key') := by
  cases h with
  | mk _ hprivate hsymmetric => exact .mk (.some hkey) hprivate hsymmetric

theorem Matches.withPendingFile (h : s.Matches C t) (path : Bytes) :
    (s.withPendingFile path).Matches C (t.withPendingFile path) := by
  cases h with
  | mk hpublic hprivate hsymmetric => exact .mk hpublic hprivate hsymmetric

theorem Matches.installKey (h : s.Matches C t) {key key' : SymmetricKey}
    (hkey : C.symmetricKey key key') : (s.installKey key).Matches C (t.installKey key') := by
  cases h with
  | mk hpublic hprivate _ => exact .mk hpublic hprivate (.some hkey)

theorem Matches.dropKey (h : s.Matches C t) : s.dropKey.Matches C t.dropKey := by
  cases h with
  | mk hpublic hprivate _ => exact .mk hpublic hprivate .none

theorem Matches.deny (h : s.Matches C t) : s.deny.Matches C t.deny := by
  cases h with
  | mk hpublic hprivate _ => exact .mk hpublic hprivate .none

/-- Only the state is set, by the state. -/
theorem Matches.withState (h : s.Matches C t) (f : SessionState → SessionState) :
    ({ s with state := f s.state } : Session).Matches C { t with state := f t.state } := by
  cases h with
  | mk hpublic hprivate hsymmetric => exact .mk hpublic hprivate hsymmetric

theorem Matches.beginTransfer (h : s.Matches C t) :
    Replies (Session.Matches C) s.beginTransfer t.beginTransfer := by
  have hid := h.requireId
  have hkey := h.requireSymmetricKey
  unfold Session.beginTransfer
  generalize s.requireId = x at hid
  generalize t.requireId = x' at hid
  generalize s.requireSymmetricKey = y at hkey
  generalize t.requireSymmetricKey = y' at hkey
  cases hid with
  | error => exact .error
  | ok =>
    cases hkey with
    | error => exact .error
    | ok => exact .ok (h.withState fun _ => .transferring)

end Session

namespace Client

variable {ω ω' α β : Type}

/-- Related clients, each in surroundings of its own. The steps of which operations are made come to
the same end on both sides, with results that correspond, and keep the clients related. -/
structure Companions (C : Correspondence) (R : Client ω → Client ω' → Prop) (env : Environment ω)
    (env' : Environment ω') : Prop where
  session : ∀ {c d}, R c d → c.session.Matches C d.session
  metrics_eq : ∀ {c d}, R c d → c.metrics = d.metrics
  maxRetries_eq : env.maxRetries = env'.maxRetries
  changeSession : ∀ {f g : Session → Session}, (∀ s t, s.Matches C t → (f s).Matches C (g t)) →
    Keeps R Eq (changeSession f) (changeSession g)
  count : ∀ step, Keeps R Eq (count step) (count step)
  report : ∀ e, Keeps R Eq (report e) (report e)
  reportConfirmed : ∀ {d e : Delivery}, d.Matches C e →
    Keeps R Eq (Client.report (.transferConfirmed d.file d.attempts d.checksum))
      (Client.report (.transferConfirmed e.file e.attempts e.checksum))
  noteEcho : ∀ {id id'}, C.echoed id id' → Keeps R Eq (noteEcho id) (noteEcho id')
  ask : ∀ {r r'}, r.Matches C r' → ∀ expected,
    Keeps R (ResponsePayload.Matches C) (ask env r expected) (ask env' r' expected)
  tell : ∀ {r r'}, r.Matches C r' → Keeps R Eq (tell env r) (tell env' r')
  generateKeys : Keeps R (fun keys keys' => C.publicKey keys.1 keys'.1 ∧ C.privateKey keys.2 keys'.2)
    (consult env.generateKeys .generatedKeys) (consult env'.generateKeys .generatedKeys)
  derivePublicKey : ∀ {key key'}, C.privateKey key key' →
    Keeps R C.publicKey (consult (env.derivePublicKey key) (.derivedPublicKey key))
      (consult (env'.derivePublicKey key') (.derivedPublicKey key'))
  unwrapKey : ∀ {key key'} wrapped, C.privateKey key key' →
    Keeps R (fun material material' =>
        Replies C.symmetricKey (SymmetricKey.ofBytes material) (SymmetricKey.ofBytes material'))
      (consult (env.unwrapKey key wrapped) (.unwrappedKey key wrapped))
      (consult (env'.unwrapKey key' wrapped) (.unwrappedKey key' wrapped))
  encrypt : ∀ {key key'} content, C.symmetricKey key key' →
    Keeps R C.sealed (consult (env.encrypt key content) (.encrypted key content))
      (consult (env'.encrypt key' content) (.encrypted key' content))
  loadIdentity : Keeps R (Option.Rel (Identity.Matches C))
    (consult env.loadIdentity .loadedIdentity) (consult env'.loadIdentity .loadedIdentity)
  storeIdentity : ∀ {identity identity'}, identity.Matches C identity' →
    Keeps R Eq (consult (env.storeIdentity identity) (.storedIdentity identity))
      (consult (env'.storeIdentity identity') (.storedIdentity identity'))
  loadFile : ∀ path, Keeps R Eq (consult (env.loadFile path) (.loadedFile path))
    (consult (env'.loadFile path) (.loadedFile path))

namespace Companions

variable {C : Correspondence} {R : Client ω → Client ω' → Prop} {env : Environment ω}
  {env' : Environment ω'}

theorem require (h : Companions C R env env') {U : α → β → Prop}
    {f : Session → Except TransferError α} {g : Session → Except TransferError β}
    (hfg : ∀ s t, s.Matches C t → Replies U (f s) (g t)) :
    Keeps R U (require f) (require g) := by
  apply keeps_get_bind
  intro c d hcd
  exact keeps_ofExcept (hfg _ _ (h.session hcd))

theorem requireId (h : Companions C R env env') :
    Keeps R Eq (Client.require (·.requireId)) (Client.require (·.requireId)) :=
  h.require fun _ _ hst => hst.requireId

theorem requirePrivateKey (h : Companions C R env env') :
    Keeps R C.privateKey (Client.require (·.requirePrivateKey))
      (Client.require (·.requirePrivateKey)) :=
  h.require fun _ _ hst => hst.requirePrivateKey

theorem installKey (h : Companions C R env env') (wrapped : Bytes) :
    Keeps R Eq (installKey env wrapped) (installKey env' wrapped) := by
  have hunwrap : Keeps R C.symmetricKey (Client.unwrapKey env wrapped)
      (Client.unwrapKey env' wrapped) := by
    apply h.requirePrivateKey.bind
    intro key key' hkey
    apply (h.unwrapKey wrapped hkey).bind
    intro material material' hmaterial
    exact keeps_ofExcept hmaterial
  apply hunwrap.attempt.bind
  intro y y' hy
  cases hy with
  | ok hkey =>
    apply (h.changeSession fun _ _ hst => hst.installKey hkey).bind_eq
    intro _
    exact h.count _
  | @error e =>
    apply (h.report _).bind_eq
    intro _
    apply (h.changeSession fun _ _ hst => hst.dropKey).bind_eq
    intro _
    exact keeps_fail e

theorem takeKey (h : Companions C R env env') {id id' : ClientId} (hid : C.echoed id id')
    (wrapped : Bytes) (news : Event) :
    Keeps R Eq (takeKey env id wrapped news) (takeKey env' id' wrapped news) := by
  apply (h.noteEcho hid).bind_eq
  intro _
  apply (h.installKey wrapped).bind_eq
  intro _
  exact h.report news

theorem publicKey (h : Companions C R env env') :
    Keeps R C.publicKey (publicKey env) (publicKey env') := by
  apply keeps_get_bind
  intro c d hcd
  have hpublic := (h.session hcd).publicKey
  generalize c.session.publicKey = x at hpublic
  generalize d.session.publicKey = y at hpublic
  cases hpublic with
  | some hkey => exact keeps_pure hkey
  | none =>
    apply h.requirePrivateKey.bind
    intro privateKey privateKey' hprivate
    apply (h.derivePublicKey hprivate).bind
    intro key key' hkey
    apply (h.changeSession fun _ _ hst => hst.withPublicKey hkey).bind_eq
    intro _
    exact keeps_pure hkey

theorem exchangeKeys (h : Companions C R env env') :
    Keeps R Eq (exchangeKeys env) (exchangeKeys env') := by
  apply h.requireId.bind_eq
  intro id
  apply h.publicKey.bind
  intro key key' hkey
  apply keeps_get_bind
  intro c d hcd
  rw [(h.session hcd).username_eq]
  apply (h.ask (.sendPublicKey id _ hkey) _).bind
  intro p p' hp
  cases hp with
  | keyExchange wrapped hid => exact h.takeKey hid wrapped _
  | _ => exact keeps_fail _

theorem reconnect (h : Companions C R env env') :
    Keeps R Eq (reconnect env) (reconnect env') := by
  apply h.requireId.bind_eq
  intro id
  apply keeps_get_bind
  intro c d hcd
  rw [(h.session hcd).username_eq]
  apply (h.ask (.same _) _).bind
  intro p p' hp
  cases hp with
  | reconnectionAccepted wrapped hid => exact h.takeKey hid wrapped _
  | reconnectionDenied =>
    apply (h.changeSession fun _ _ hst => hst.deny).bind_eq
    intro _
    apply (h.report _).bind_eq
    intro _
    exact keeps_fail _
  | _ => exact keeps_fail _

theorem restore (h : Companions C R env env') : Keeps R Eq (restore env) (restore env') := by
  apply h.loadIdentity.bind
  intro found found' hfound
  cases hfound with
  | none => exact keeps_fail _
  | some hidentity =>
    cases hidentity with
    | mk username id hkey =>
      apply (h.changeSession fun _ _ _ => Session.matches_restore (.mk username id hkey)).bind_eq
      intro _
      apply h.requireId.bind_eq
      intro id
      apply (h.report _).bind_eq
      intro _
      exact keeps_pure rfl

theorem takeIdentity (h : Companions C R env env') (name : Name) (id : ClientId) :
    Keeps R Eq (takeIdentity env name id) (takeIdentity env' name id) := by
  apply h.generateKeys.bind
  intro keys keys' hkeys
  obtain ⟨hpublic, hprivate⟩ := hkeys
  have hidentity : (⟨name, id, keys.2⟩ : Identity).Matches C ⟨name, id, keys'.2⟩ :=
    .mk name id hprivate
  apply (h.storeIdentity hidentity).bind_eq
  intro _
  apply (h.changeSession fun _ _ hst => hst.adopt hidentity hpublic).bind_eq
  intro _
  apply (h.report _).bind_eq
  intro _
  exact keeps_pure rfl

theorem register (h : Companions C R env env') (username : String) :
    Keeps R Eq (register env username) (register env' username) := by
  apply (keeps_same _).bind_eq
  intro name
  apply (h.ask (.same _) _).bind
  intro p p' hp
  cases hp with
  | registrationSuccess id => exact h.takeIdentity name id
  | registrationFailure =>
    apply (h.report _).bind_eq
    intro _
    exact keeps_fail _
  | _ => exact keeps_fail _

theorem judge (h : Companions C R env env') (id : ClientId) (file : Name) (checksum : UInt32)
    {receipt receipt' : Receipt} (hr : receipt.Matches C receipt') :
    Keeps R (Receipt.Matches C) (judge env id file checksum receipt)
      (judge env' id file checksum receipt') := by
  unfold Client.judge
  rw [hr.checksum_eq]
  split
  · exact keeps_pure hr
  · apply (h.tell (.same _)).bind_eq
    intro _
    exact keeps_fail _

theorem uploadOnce (h : Companions C R env env') (file : Name) (content : Bytes) :
    Keeps R (Receipt.Matches C) (uploadOnce env file content) (uploadOnce env' file content) := by
  apply h.requireId.bind_eq
  intro id
  apply (h.require fun _ _ hst => hst.requireSymmetricKey).bind
  intro key key' hkey
  apply (h.encrypt content hkey).bind
  intro encrypted encrypted' hsealed
  apply (keeps_ofExcept (Request.upload_matches id file hsealed)).bind
  intro request request' hrequest
  apply (h.count _).bind_eq
  intro _
  apply (h.ask hrequest _).bind
  intro p p' hp
  cases hp with
  | fileDelivered checksum hrepeated => exact h.judge id file _ ⟨hrepeated, rfl⟩
  | _ => exact keeps_fail _

theorem sendVerdict (h : Companions C R env env') (verdict : Verdict) (file : Name) :
    Keeps R Eq (sendVerdict env verdict file) (sendVerdict env' verdict file) := by
  apply h.requireId.bind_eq
  intro id
  apply (h.ask (.same _) _).bind
  intro p p' hp
  cases hp with
  | messageDelivered => exact keeps_pure rfl
  | _ => exact keeps_fail _

theorem upload (h : Companions C R env env') (file : Name) (content : Bytes)
    (remaining used : Nat) :
    Keeps R (Delivery.Matches C) (upload env file content remaining used)
      (upload env' file content remaining used) := by
  induction remaining generalizing used with
  | zero =>
    apply (h.sendVerdict .finalInvalid file).bind_eq
    intro _
    exact keeps_fail _
  | succ remaining ih =>
    apply (h.uploadOnce file content).attempt.bind
    intro y y' hy
    cases hy with
    | ok hreceipt =>
      apply (h.sendVerdict .valid file).bind_eq
      intro _
      exact keeps_pure ⟨hreceipt.repeated, rfl, hreceipt.checksum_eq⟩
    | @error e =>
      simp only
      split
      · apply (h.count _).bind_eq
        intro _
        apply (h.report _).bind_eq
        intro _
        exact ih (used + 1)
      · exact keeps_fail e

theorem loadAndUpload (h : Companions C R env env') (path : Bytes) (file : Name) :
    Keeps R (Delivery.Matches C) (loadAndUpload env path file) (loadAndUpload env' path file) := by
  apply (h.loadFile path).bind_eq
  intro content
  rw [h.maxRetries_eq]
  exact h.upload file content _ _

theorem endTransfer (h : Companions C R env env') (file : Name)
    {y y' : Except TransferError Delivery} (hy : Replies (Delivery.Matches C) y y') :
    Keeps R Eq (endTransfer file y) (endTransfer file y') := by
  cases hy with
  | ok hdelivery =>
    apply (h.changeSession fun _ _ hst => hst.withState fun _ => .done).bind_eq
    intro _
    apply (h.count _).bind_eq
    intro _
    exact h.reportConfirmed hdelivery
  | @error e =>
    unfold Client.endTransfer
    split
    · cases ‹_ = Except.ok _›
    · apply (h.changeSession fun _ _ hst => hst.withState fun _ => .failed).bind_eq
      intro _
      apply (h.count _).bind_eq
      intro _
      exact h.report _
    · have hstate : ∀ s t : Session, s.Matches C t →
          s.interruptTransfer.Matches C t.interruptTransfer := fun _ _ hst =>
        hst.withState fun state => if state = .transferring then .keyEstablished else state
      apply (h.changeSession hstate).bind_eq
      intro _
      exact h.report _

theorem transfer (h : Companions C R env env') (path : Bytes) :
    Keeps R (Delivery.Matches C) (transfer env path) (transfer env' path) := by
  apply (h.changeSession fun _ _ hst => hst.withPendingFile path).bind_eq
  intro _
  apply (keeps_same _).bind_eq
  intro file
  apply (h.require fun _ _ hst => hst.beginTransfer).bind
  intro session session' hsession
  apply (h.changeSession fun _ _ _ => hsession).bind_eq
  intro _
  apply (h.loadAndUpload path file).attempt.bind
  intro y y' hy
  apply (h.endTransfer file hy).bind_eq
  intro _
  apply keeps_get_bind
  intro c d hcd
  rw [h.metrics_eq hcd]
  apply (h.report _).bind_eq
  intro _
  exact keeps_ofExcept hy

/-- The clients come to the same end of each operation, with replies that correspond, and stay
related. -/
theorem perform (h : Companions C R env env') (op : Operation) :
    Keeps R (Reply.Matches C) (perform env op) (perform env' op) := by
  cases op with
  | restore => exact h.restore.map fun id _ hid => hid ▸ .id id
  | register username => exact (h.register username).map fun id _ hid => hid ▸ .id id
  | exchangeKeys => exact h.exchangeKeys.map fun _ _ _ => .done
  | reconnect => exact h.reconnect.map fun _ _ _ => .done
  | transfer path => exact (h.transfer path).map fun _ _ hd => .delivery hd
  | uploadOnce file content => exact (h.uploadOnce file content).map fun _ _ hr => .receipt hr
  | giveUp file => exact (h.sendVerdict .finalInvalid file).map fun _ _ _ => .done

end Companions

end Client

end Courier
