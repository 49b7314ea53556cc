import Courier.Proofs.Client.OperationCourses

namespace Courier

/-- The client takes on another identity after this. -/
def Act.ChangesIdentity : Act → Prop
  | .loadedIdentity (.ok (some _)) | .storedIdentity _ (.ok ()) => True
  | _ => False

/-- The answer brings a session key, or says that the server does not recognise the client. -/
def RoundTrip.EndsKey (trip : RoundTrip) : Prop :=
  match trip.outcome with
  | .ok (some (.keyExchange _ _)) | .ok (some (.reconnectionAccepted _ _))
  | .ok (some (.reconnectionDenied _)) => True
  | _ => False

/-- The session key of before is not to be used after this. -/
def Act.EndsKey : Act → Prop
  | .roundTrip trip => trip.EndsKey
  | act => act.ChangesIdentity

theorem Act.not_changesIdentity_of_not_endsKey {act : Act} (h : ¬act.EndsKey) :
    ¬act.ChangesIdentity := by
  cases act with
  | roundTrip trip => exact id
  | _ => exact h

namespace RoundTrip

variable {trip : RoundTrip}

theorem not_endsKey_of_error {stop : Stop} (h : trip.outcome = .error stop) : ¬trip.EndsKey := by
  unfold EndsKey
  rw [h]
  exact id

theorem not_endsKey_of_none (h : trip.outcome = .ok none) : ¬trip.EndsKey := by
  unfold EndsKey
  rw [h]
  exact id

theorem Reports.not_endsKey {file : Name} {size checksum : UInt32}
    (h : trip.Reports file size checksum) : ¬trip.EndsKey := by
  obtain ⟨echoed, houtcome⟩ := h
  unfold EndsKey
  rw [houtcome]
  exact id

theorem IsAcknowledged.not_endsKey (h : trip.IsAcknowledged) : ¬trip.EndsKey := by
  obtain ⟨echoed, houtcome⟩ := h
  unfold EndsKey
  rw [houtcome]
  exact id

end RoundTrip

namespace Session

variable {s : Session}

/-- The same user name, identity and private key. -/
structure SameOwner (s t : Session) : Prop where
  username_eq : t.username = s.username
  id_eq : t.id = s.id
  privateKey_eq : t.privateKey = s.privateKey

theorem SameOwner.refl (s : Session) : s.SameOwner s :=
  ⟨rfl, rfl, rfl⟩

theorem SameOwner.trans {t u : Session} (h : s.SameOwner t) (h' : t.SameOwner u) : s.SameOwner u :=
  ⟨h'.username_eq.trans h.username_eq, h'.id_eq.trans h.id_eq,
    h'.privateKey_eq.trans h.privateKey_eq⟩

/-- What holds of a session between operations. -/
structure IsSound (s : Session) : Prop where
  keyed : s.symmetricKey.isSome ↔ s.state = .keyEstablished ∨ s.state = .done ∨ s.state = .failed
  resting : s.state ≠ .transferring
  identified : s.symmetricKey.isSome → s.id.isAssigned
  owned : s.id.isAssigned → s.privateKey.isSome

theorem isSound_new : new.IsSound := by
  constructor <;> simp [new]

theorem IsSound.withPendingFile (h : s.IsSound) (path : Bytes) : (s.withPendingFile path).IsSound :=
  ⟨h.keyed, h.resting, h.identified, h.owned⟩

theorem IsSound.withPublicKey (h : s.IsSound) (key : PublicKey) : (s.withPublicKey key).IsSound :=
  ⟨h.keyed, h.resting, h.identified, h.owned⟩

theorem IsSound.installKey (h : s.IsSound) (hid : s.id.isAssigned) (key : SymmetricKey) :
    (s.installKey key).IsSound := by
  refine ⟨?_, ?_, fun _ => hid, h.owned⟩
  · simp [Session.installKey]
  · simp [Session.installKey]

theorem IsSound.dropKey (h : s.IsSound) (hid : s.id.isAssigned) : s.dropKey.IsSound := by
  refine ⟨?_, ?_, ?_, h.owned⟩
  · simp [Session.dropKey, hid]
  · simp [Session.dropKey, hid]
  · simp [Session.dropKey]

theorem IsSound.deny (h : s.IsSound) : s.deny.IsSound := by
  refine ⟨?_, ?_, ?_, h.owned⟩
  · simp [Session.deny]
  · simp [Session.deny]
  · simp [Session.deny]

/-- A restored identity brings its private key and nothing else. -/
theorem isSound_restore (identity : Identity) : (restore identity).IsSound := by
  refine ⟨?_, ?_, ?_, fun _ => rfl⟩
  · by_cases hi : identity.id.isAssigned <;> simp [restore, hi]
  · by_cases hi : identity.id.isAssigned <;> simp [restore, hi]
  · simp [restore]

theorem isSound_adopt (s : Session) (identity : Identity) (key : PublicKey) :
    (s.adopt identity key).IsSound := by
  refine ⟨?_, ?_, ?_, fun _ => rfl⟩
  · simp [adopt]
  · simp [adopt]
  · simp [adopt]

theorem privateKey_of_require {key : PrivateKey} (h : s.requirePrivateKey = .ok key) :
    s.privateKey = some key := by
  unfold requirePrivateKey at h
  split at h
  · cases h
    assumption
  · cases h

theorem exists_requirePrivateKey (h : s.privateKey.isSome) : ∃ key, s.requirePrivateKey = .ok key := by
  obtain ⟨key, hkey⟩ := Option.isSome_iff_exists.mp h
  refine ⟨key, ?_⟩
  rw [requirePrivateKey, hkey]

theorem eq_of_beginTransfer {t : Session} (h : s.beginTransfer = .ok t) :
    s.id.isAssigned ∧ s.symmetricKey.isSome ∧ t = { s with state := .transferring } := by
  unfold beginTransfer at h
  obtain ⟨id, hid, hkeyed⟩ := bind_eq_ok.mp h
  obtain ⟨key, hkey, hbegun⟩ := bind_eq_ok.mp hkeyed
  refine ⟨?_, ?_, (Except.ok.inj hbegun).symm⟩
  · unfold requireId at hid
    split at hid
    · assumption
    · cases hid
  · unfold requireSymmetricKey at hkey
    split at hkey
    · rename_i hsome
      rw [hsome]
      rfl
    · cases hkey

/-- A transfer that is closed leaves the session with its key in a state for that. -/
theorem IsSound.closed {t : Session} (h : s.IsSound) (hbegin : s.beginTransfer = .ok t)
    (r : Except TransferError Delivery) : (t.closed r).IsSound := by
  obtain ⟨hid, hkey, rfl⟩ := eq_of_beginTransfer hbegin
  rw [closed_eq rfl]
  have hstate := SessionState.afterTransfer_cases r
  refine ⟨⟨fun _ => hstate, fun _ => hkey⟩, ?_, h.identified, h.owned⟩
  rcases hstate with hstate | hstate | hstate <;> simp [hstate]

end Session

namespace Client

section Courses

variable {s : Session} {deeds : List Deed} {file : Name} {content : Bytes} {retries : UInt32}

theorem RestoreCourse.isSound {y : Except Stop ClientId} (h : RestoreCourse deeds y)
    (hs : s.IsSound) : (Deed.left s deeds).IsSound := by
  cases h with
  | failed | missing => exact hs
  | useless | restored => exact Session.isSound_restore _

theorem RegisterCourse.isSound {username : String} {y : Except Stop ClientId}
    (h : RegisterCourse s username deeds y) (hs : s.IsSound) : (Deed.left s deeds).IsSound := by
  cases h with
  | invalid | lost | refused | keyless | unstored => exact hs
  | adopted => exact Session.isSound_adopt s _ _

theorem TakeCourse.isSound {wrapped : Bytes} {y : Except Stop Unit}
    (h : TakeCourse s wrapped deeds y) (hs : s.IsSound) (hid : s.id.isAssigned) :
    (Deed.left s deeds).IsSound := by
  cases h with
  | ownerless | unusable =>
    rw [Deed.left_append, Deed.left_echo]
    exact hs.dropKey hid
  | installed =>
    rw [Deed.left_append, Deed.left_echo]
    exact hs.installKey hid _

theorem KeyCourse.isSound {request : Request} {y : Except Stop Unit}
    (h : KeyCourse s request deeds y) (hs : s.IsSound) (hid : s.id.isAssigned) :
    (Deed.left s deeds).IsSound := by
  cases h with
  | lost => exact hs
  | denied => exact hs.deny
  | taken _ _ htake => exact htake.isSound hs hid

/-- What a request for a session key leaves of the session besides key and state. -/
theorem TakeCourse.keeps {wrapped : Bytes} {y : Except Stop Unit}
    (h : TakeCourse s wrapped deeds y) : s.SameOwner (Deed.left s deeds) ∧
      (Deed.left s deeds).publicKey = s.publicKey ∧
      (Deed.left s deeds).pendingFile = s.pendingFile := by
  cases h <;> simpa using ⟨⟨rfl, rfl, rfl⟩, rfl, rfl⟩

theorem KeyCourse.keeps {request : Request} {y : Except Stop Unit}
    (h : KeyCourse s request deeds y) : s.SameOwner (Deed.left s deeds) ∧
      (Deed.left s deeds).publicKey = s.publicKey ∧
      (Deed.left s deeds).pendingFile = s.pendingFile := by
  cases h with
  | lost | denied => exact ⟨⟨rfl, rfl, rfl⟩, rfl, rfl⟩
  | taken _ _ htake => exact htake.keeps

theorem KeySource.left_eq {y : Except Stop PublicKey} (h : KeySource s deeds y) :
    Deed.left s deeds = s ∨ s.publicKey = none ∧ ∃ key, Deed.left s deeds = s.withPublicKey key := by
  cases h with
  | cached | ownerless | underived => exact .inl rfl
  | derived hnone => exact .inr ⟨hnone, _, rfl⟩

theorem KeySource.isSound {y : Except Stop PublicKey} (h : KeySource s deeds y) (hs : s.IsSound) :
    (Deed.left s deeds).IsSound := by
  rcases h.left_eq with hsame | ⟨-, key, hkey⟩
  · rw [hsame]
    exact hs
  · rw [hkey]
    exact hs.withPublicKey key

theorem KeySource.sameOwner {y : Except Stop PublicKey} (h : KeySource s deeds y) :
    s.SameOwner (Deed.left s deeds) := by
  rcases h.left_eq with hsame | ⟨-, key, hkey⟩
  · rw [hsame]
    exact .refl s
  · rw [hkey]
    exact ⟨rfl, rfl, rfl⟩

theorem ExchangeCourse.isSound {y : Except Stop Unit} (h : ExchangeCourse s deeds y)
    (hs : s.IsSound) : (Deed.left s deeds).IsSound := by
  cases h with
  | unregistered => exact hs
  | unasked _ hsource => exact hsource.isSound hs
  | asked hid hsource hcourse =>
    rw [Deed.left_append]
    rw [← hsource.sameOwner.id_eq] at hid
    exact hcourse.isSound (hsource.isSound hs) hid

theorem ReconnectCourse.isSound {y : Except Stop Unit} (h : ReconnectCourse s deeds y)
    (hs : s.IsSound) : (Deed.left s deeds).IsSound := by
  cases h with
  | unregistered => exact hs
  | asked hid hcourse => exact hcourse.isSound hs hid

theorem TransferCourse.isSound {path : Bytes} {y : Except Stop Delivery}
    (h : TransferCourse retries s path deeds y) (hy : y ≠ .error .hung) (hs : s.IsSound) :
    (Deed.left s deeds).IsSound := by
  cases h with
  | unnamed | unready => exact hs.withPendingFile path
  | hung => exact absurd rfl hy
  | closed _ hbegin hwork =>
    rw [Deed.left_changed, Deed.left_changed, Deed.left_append, Deed.left_append]
    rw [hwork.left_eq]
    exact (hs.withPendingFile path).closed hbegin _

/-- An operation that comes back leaves a sound session sound. -/
theorem OperationCourse.isSound {op : Operation} {y : Except Stop Reply}
    (h : OperationCourse retries s op deeds y) (hy : y ≠ .error .hung) (hs : s.IsSound) :
    (Deed.left s deeds).IsSound := by
  cases h with
  | restore h => exact h.isSound hs
  | register h => exact h.isSound hs
  | exchangeKeys h => exact h.isSound hs
  | reconnect h => exact h.isSound hs
  | transfer h =>
    refine h.isSound ?_ hs
    rintro rfl
    exact hy rfl
  | uploadOnce h =>
    rw [h.left_eq]
    exact hs
  | giveUp h =>
    rw [h.left_eq]
    exact hs

/-- Nothing that is done about an upload ends the use of the session key. -/
theorem TryCourse.not_endsKey {y : Except Stop Receipt} (h : TryCourse s file content deeds y) :
    ∀ act ∈ Deed.acts deeds, ¬act.EndsKey := by
  cases h with
  | unready | unsealed | unsendable => simp [Act.EndsKey, Act.ChangesIdentity]
  | lost _ _ houtcome =>
    have hupload := RoundTrip.not_endsKey_of_error houtcome
    simp [Deed.upload, Act.EndsKey, Act.ChangesIdentity, hupload]
  | accepted _ _ hreports =>
    have hupload := hreports.not_endsKey
    simp [Deed.upload, Act.EndsKey, Act.ChangesIdentity, hupload]
  | rejected _ _ hreports _ _ hpassed =>
    have hupload := hreports.not_endsKey
    have hnotice := RoundTrip.not_endsKey_of_none hpassed
    simp [Deed.upload, Act.EndsKey, Act.ChangesIdentity, hupload, hnotice]
  | unnoticed _ _ hreports _ _ hlost =>
    have hupload := hreports.not_endsKey
    have hnotice := RoundTrip.not_endsKey_of_error hlost
    simp [Deed.upload, Act.EndsKey, Act.ChangesIdentity, hupload, hnotice]

theorem VerdictCourse.not_endsKey {verdict : Verdict} {y : Except Stop Unit}
    (h : VerdictCourse s verdict file deeds y) : ∀ act ∈ Deed.acts deeds, ¬act.EndsKey := by
  cases h with
  | unready => simp
  | lost _ _ houtcome => simpa [Act.EndsKey] using RoundTrip.not_endsKey_of_error houtcome
  | acknowledged _ _ hacknowledged => simpa [Act.EndsKey] using hacknowledged.not_endsKey

theorem UploadCourse.not_endsKey {remaining made : Nat} {y : Except Stop Delivery}
    (h : UploadCourse s file content remaining made deeds y) :
    ∀ act ∈ Deed.acts deeds, ¬act.EndsKey := by
  refine h.all (M := fun ds => ∀ act ∈ Deed.acts ds, ¬act.EndsKey) ?_ (·.not_endsKey)
    (fun h _ => h.not_endsKey) (by simp)
  intro ds es hds hes
  rw [Deed.acts_append]
  exact List.forall_mem_append.mpr ⟨hds, hes⟩

theorem WorkCourse.not_endsKey {path : Bytes} {y : Except Stop Delivery}
    (h : WorkCourse retries s path file deeds y) : ∀ act ∈ Deed.acts deeds, ¬act.EndsKey := by
  cases h with
  | unread => simp [Act.EndsKey, Act.ChangesIdentity]
  | read hupload =>
    rw [Deed.acts_noted]
    exact List.forall_mem_cons.mpr ⟨id, hupload.not_endsKey⟩

theorem TransferCourse.not_endsKey {path : Bytes} {y : Except Stop Delivery}
    (h : TransferCourse retries s path deeds y) : ∀ act ∈ Deed.acts deeds, ¬act.EndsKey := by
  cases h with
  | unnamed | unready => simp
  | hung _ _ hwork => exact hwork.not_endsKey
  | closed _ _ hwork => simpa [Deed.closing] using hwork.not_endsKey

/-- A request for a session key leaves the identity as it is. -/
theorem TakeCourse.not_changesIdentity {wrapped : Bytes} {y : Except Stop Unit}
    (h : TakeCourse s wrapped deeds y) : ∀ act ∈ Deed.acts deeds, ¬act.ChangesIdentity := by
  cases h <;> simp [Act.ChangesIdentity]

theorem KeyCourse.not_changesIdentity {request : Request} {y : Except Stop Unit}
    (h : KeyCourse s request deeds y) : ∀ act ∈ Deed.acts deeds, ¬act.ChangesIdentity := by
  cases h with
  | lost | denied => simp [Act.ChangesIdentity]
  | taken _ _ htake =>
    rw [Deed.acts_noted]
    exact List.forall_mem_cons.mpr ⟨id, htake.not_changesIdentity⟩

theorem KeySource.not_endsKey {y : Except Stop PublicKey} (h : KeySource s deeds y) :
    ∀ act ∈ Deed.acts deeds, ¬act.EndsKey := by
  cases h <;> simp [Act.EndsKey, Act.ChangesIdentity]

end Courses

section Vouching

variable {ω : Type} {env : Environment ω} {first : ω} {c d : Client ω}

/-- In the world `w`, which is left as `w'`, the key provider gives the public key: for the private
key of the identity, or together with it, and then the identity is stored. -/
inductive Vouches (env : Environment ω) (w : ω) (identity : Identity) (key : PublicKey) :
    List Act → ω → Prop where
  | derived {w' : ω} :
    env.derivePublicKey identity.privateKey w = (.ok key, w') →
      Vouches env w identity key [.derivedPublicKey identity.privateKey (.ok key)] w'
  | generated {m w' : ω} :
    env.generateKeys w = (.ok (key, identity.privateKey), m) →
      env.storeIdentity identity m = (.ok (), w') →
        Vouches env w identity key
          [.generatedKeys (.ok (key, identity.privateKey)), .storedIdentity identity (.ok ())] w'

/-- The key provider gave the public key for the identity of the session, or with it, and that has
not changed since. -/
def IsVouched (env : Environment ω) (first : ω) (c : Client ω) (key : PublicKey) : Prop :=
  ∃ privateKey before w given w' after, c.session.privateKey = some privateKey ∧
    c.journal = before ++ given ++ after ∧ History env first before w ∧
    Vouches env w ⟨c.session.username, c.session.id, privateKey⟩ key given w' ∧
    History env w' after c.world ∧ ∀ act ∈ after, ¬act.ChangesIdentity

/-- What holds between operations of a client that began in the world `first`. -/
structure Sound (env : Environment ω) (first : ω) (c : Client ω) : Prop where
  session : c.session.IsSound
  recorded : History env first c.journal c.world
  vouched : ∀ key, c.session.publicKey = some key → c.IsVouched env first key

theorem IsVouched.notes {key : PublicKey} {acts : List Act} (h : c.IsVouched env first key)
    (hd : Notes env c acts d) (hs : c.session.SameOwner d.session)
    (ha : ∀ act ∈ acts, ¬act.ChangesIdentity) : d.IsVouched env first key := by
  obtain ⟨privateKey, before, w, given, w', after, hprivate, hj, hbefore, hgiven, hafter, hquiet⟩ := h
  refine ⟨privateKey, before, w, given, w', after ++ acts, ?_, ?_, hbefore, ?_,
    hafter.append hd.history, List.forall_mem_append.mpr ⟨hquiet, ha⟩⟩
  · rw [hs.privateKey_eq, hprivate]
  · rw [hd.journal_eq, hj, List.append_assoc _ after]
  · rw [hs.username_eq, hs.id_eq]
    exact hgiven

/-- A key that was just given for the identity, or with it. -/
theorem isVouched_of_given {key : PublicKey} {privateKey : PrivateKey} {before given : List Act}
    {w : ω} (hprivate : d.session.privateKey = some privateKey)
    (hj : d.journal = before ++ given) (hbefore : History env first before w)
    (hgiven : Vouches env w ⟨d.session.username, d.session.id, privateKey⟩ key given d.world) :
    d.IsVouched env first key :=
  ⟨privateKey, before, w, given, d.world, [], hprivate, by rw [hj, List.append_nil], hbefore, hgiven,
    .nil, by simp⟩

theorem sound_new (world : ω) : (Client.new world).Sound env world :=
  ⟨Session.isSound_new, .nil, by nofun⟩

variable {deeds : List Deed} {retries : UInt32}

theorem Sound.recorded_of_does (h : c.Sound env first) (hd : Does env c deeds d) :
    History env first d.journal d.world := by
  rw [hd.notes.journal_eq]
  exact h.recorded.append hd.notes.history

/-- Soundness is kept where the owner and the public key are. -/
theorem Sound.does (h : c.Sound env first) (hd : Does env c deeds d) (hs : d.session.IsSound)
    (howner : c.session.SameOwner d.session) (hkey : d.session.publicKey = c.session.publicKey)
    (ha : ∀ act ∈ Deed.acts deeds, ¬act.ChangesIdentity) : d.Sound env first := by
  refine ⟨hs, h.recorded_of_does hd, ?_⟩
  intro key hsome
  rw [hkey] at hsome
  exact (h.vouched key hsome).notes hd.notes howner ha

theorem RestoreCourse.sound {y : Except Stop ClientId} (h : RestoreCourse deeds y)
    (hd : Does env c deeds d) (hc : c.Sound env first) : d.Sound env first := by
  have hs : d.session.IsSound := by
    rw [hd.session_eq]
    exact h.isSound hc.session
  cases h with
  | failed | missing =>
    have hsame : d.session = c.session := hd.session_eq
    refine hc.does hd hs ?_ ?_ ?_
    · rw [hsame]
      exact .refl _
    · rw [hsame]
    · simp [Act.ChangesIdentity]
  | useless | restored =>
    refine ⟨hs, hc.recorded_of_does hd, ?_⟩
    intro key hkey
    rw [hd.session_eq] at hkey
    cases hkey

theorem RegisterCourse.sound {username : String} {y : Except Stop ClientId}
    (h : RegisterCourse c.session username deeds y) (hd : Does env c deeds d)
    (hc : c.Sound env first) : d.Sound env first := by
  have hs : d.session.IsSound := by
    rw [hd.session_eq]
    exact h.isSound hc.session
  cases h with
  | invalid | lost | refused | keyless | unstored =>
    have hsame : d.session = c.session := hd.session_eq
    refine hc.does hd hs ?_ ?_ ?_
    · rw [hsame]
      exact .refl _
    · rw [hsame]
    · simp [Act.ChangesIdentity]
  | @adopted name id trip key privateKey =>
    refine ⟨hs, hc.recorded_of_does hd, ?_⟩
    intro key' hkey
    have hsession : d.session = c.session.adopt ⟨name, id, privateKey⟩ key := hd.session_eq
    rw [hsession] at hkey
    cases hkey
    obtain ⟨hj, hhistory⟩ := hd.notes
    simp only [Deed.acts_noted, Deed.acts_changed, Deed.acts_told, Deed.acts_nil, History.cons_iff,
      History.nil_iff] at hj hhistory
    obtain ⟨w, htrip, m, hgenerate, w', hstore, hlast⟩ := hhistory
    subst hlast
    have hbefore : History env first (c.journal ++ [.roundTrip trip]) w :=
      hc.recorded.append (History.singleton_iff.mpr htrip)
    have hgiven : Vouches env w ⟨d.session.username, d.session.id, privateKey⟩ key
        [.generatedKeys (.ok (key, privateKey)), .storedIdentity ⟨name, id, privateKey⟩ (.ok ())]
        d.world := by
      rw [hsession]
      exact .generated hgenerate hstore
    refine isVouched_of_given ?_ ?_ hbefore hgiven
    · rw [hsession]
      rfl
    · rw [hj, List.append_assoc]
      rfl

theorem KeySource.sound {y : Except Stop PublicKey} (h : KeySource c.session deeds y)
    (hd : Does env c deeds d) (hc : c.Sound env first) : d.Sound env first := by
  have hs : d.session.IsSound := by
    rw [hd.session_eq]
    exact h.isSound hc.session
  have howner : c.session.SameOwner d.session := by
    rw [hd.session_eq]
    exact h.sameOwner
  have hacts : ∀ act ∈ Deed.acts deeds, ¬act.ChangesIdentity := fun act hact =>
    Act.not_changesIdentity_of_not_endsKey (h.not_endsKey act hact)
  cases h with
  | cached | ownerless | underived => exact hc.does hd hs howner (by rw [hd.session_eq]; rfl) hacts
  | @derived privateKey key _ hprivate =>
    refine ⟨hs, hc.recorded_of_does hd, ?_⟩
    intro key' hkey
    rw [hd.session_eq] at hkey
    cases hkey
    obtain ⟨hj, hhistory⟩ := hd.notes
    refine isVouched_of_given ?_ hj hc.recorded (.derived (History.singleton_iff.mp hhistory))
    rw [howner.privateKey_eq]
    exact Session.privateKey_of_require hprivate

theorem KeyCourse.sound {request : Request} {y : Except Stop Unit}
    (h : KeyCourse c.session request deeds y) (hd : Does env c deeds d) (hc : c.Sound env first)
    (hid : c.session.id.isAssigned) : d.Sound env first := by
  obtain ⟨howner, hkey, -⟩ := h.keeps
  refine hc.does hd ?_ ?_ ?_ h.not_changesIdentity
  · rw [hd.session_eq]
    exact h.isSound hc.session hid
  · rw [hd.session_eq]
    exact howner
  · rw [hd.session_eq]
    exact hkey

theorem ExchangeCourse.sound {y : Except Stop Unit} (h : ExchangeCourse c.session deeds y)
    (hd : Does env c deeds d) (hc : c.Sound env first) : d.Sound env first := by
  cases h with
  | unregistered =>
    cases hd
    exact hc
  | unasked _ hsource => exact hsource.sound hd hc
  | asked hid hsource hcourse =>
    obtain ⟨m, hds, hes⟩ := hd.of_append
    rw [← hds.session_eq] at hcourse
    rw [← hsource.sameOwner.id_eq, ← hds.session_eq] at hid
    exact hcourse.sound hes (hsource.sound hds hc) hid

theorem ReconnectCourse.sound {y : Except Stop Unit} (h : ReconnectCourse c.session deeds y)
    (hd : Does env c deeds d) (hc : c.Sound env first) : d.Sound env first := by
  cases h with
  | unregistered =>
    cases hd
    exact hc
  | asked hid hcourse => exact hcourse.sound hd hc hid

/-- What a transfer leaves of the session besides state and file. -/
theorem TransferCourse.keeps {path : Bytes} {s : Session} {y : Except Stop Delivery}
    (h : TransferCourse retries s path deeds y) : s.SameOwner (Deed.left s deeds) ∧
      (Deed.left s deeds).publicKey = s.publicKey := by
  cases h with
  | unnamed | unready => exact ⟨⟨rfl, rfl, rfl⟩, rfl⟩
  | hung _ hbegin hwork =>
    obtain ⟨-, -, rfl⟩ := Session.eq_of_beginTransfer hbegin
    rw [Deed.left_changed, Deed.left_changed, hwork.left_eq]
    exact ⟨⟨rfl, rfl, rfl⟩, rfl⟩
  | closed _ hbegin hwork =>
    obtain ⟨-, -, rfl⟩ := Session.eq_of_beginTransfer hbegin
    rw [Deed.left_changed, Deed.left_changed, Deed.left_append, Deed.left_append, hwork.left_eq]
    change Session.SameOwner s (Session.closed _ _) ∧ (Session.closed _ _).publicKey = _
    rw [Session.closed_eq rfl]
    exact ⟨⟨rfl, rfl, rfl⟩, rfl⟩

/-- An operation that comes back leaves a sound client sound. -/
theorem OperationCourse.sound {op : Operation} {y : Except Stop Reply}
    (h : OperationCourse retries c.session op deeds y) (hy : y ≠ .error .hung)
    (hd : Does env c deeds d) (hc : c.Sound env first) : d.Sound env first := by
  have hs : d.session.IsSound := by
    rw [hd.session_eq]
    exact h.isSound hy hc.session
  have hquiet (hacts : ∀ act ∈ Deed.acts deeds, ¬act.EndsKey)
      (howner : c.session.SameOwner (Deed.left c.session deeds))
      (hkey : (Deed.left c.session deeds).publicKey = c.session.publicKey) : d.Sound env first := by
    rw [← hd.session_eq] at howner hkey
    exact hc.does hd hs howner hkey fun act hact =>
      Act.not_changesIdentity_of_not_endsKey (hacts act hact)
  cases h with
  | restore h => exact h.sound hd hc
  | register h => exact h.sound hd hc
  | exchangeKeys h => exact h.sound hd hc
  | reconnect h => exact h.sound hd hc
  | transfer h => exact hquiet h.not_endsKey h.keeps.1 h.keeps.2
  | uploadOnce h =>
    have hsame := h.left_eq c.session
    exact hquiet h.not_endsKey (by rw [hsame]; exact .refl _) (by rw [hsame])
  | giveUp h =>
    have hsame := h.left_eq c.session
    exact hquiet h.not_endsKey (by rw [hsame]; exact .refl _) (by rw [hsame])

end Vouching

section Runs

variable {ω : Type} {env : Environment ω} {c d : Client ω}

/-- The states in which a client can be between operations. -/
inductive Reachable (env : Environment ω) : Client ω → Prop where
  | new (world : ω) : Reachable env (.new world)
  | step {c d : Client ω} {op : Operation} {r : Except TransferError Reply} :
    Reachable env c → (perform env op).Returns c r d → Reachable env d

theorem Reachable.isSound (h : Reachable env c) : c.session.IsSound := by
  induction h with
  | new => exact Session.isSound_new
  | step _ hop ih =>
    obtain ⟨deeds, hcourse, hd⟩ := (perform_follows _ _).of_returns hop
    rw [hd.session_eq]
    exact hcourse.isSound (Action.mapError_failed_ne_hung _) ih

/-- The journal of a client is what has happened since it began. -/
theorem Reachable.recorded (h : Reachable env c) : ∃ first, History env first c.journal c.world := by
  induction h with
  | new world => exact ⟨world, .nil⟩
  | step _ hop ih =>
    obtain ⟨first, hc⟩ := ih
    obtain ⟨deeds, -, hd⟩ := (perform_follows _ _).of_returns hop
    refine ⟨first, ?_⟩
    rw [hd.notes.journal_eq]
    exact hc.append hd.notes.history

theorem Reachable.held (h : Reachable env c) : ∀ trip ∈ trips c.journal, trip.Held env := by
  induction h with
  | new world => simp [Client.new, trips]
  | step _ hop ih =>
    obtain ⟨deeds, -, hd⟩ := (perform_follows _ _).of_returns hop
    rw [hd.trips_eq]
    exact List.forall_mem_append.mpr ⟨ih, hd.held⟩

/-- Whatever the server and the surroundings do, and whichever operations come back with whatever
results, the client is sound after each. -/
theorem sound_of_reachable (h : Reachable env c) : ∃ first, c.Sound env first := by
  induction h with
  | new world => exact ⟨world, sound_new world⟩
  | step _ hop ih =>
    obtain ⟨first, hc⟩ := ih
    obtain ⟨deeds, hcourse, hd⟩ := (perform_follows _ _).of_returns hop
    exact ⟨first, hcourse.sound (Action.mapError_failed_ne_hung _) hd hc⟩

/-- A client registers, gets a session key, and finds no server when it wants to transfer a file. -/
theorem sound_of_reachable_keyed :
    ∃ c first, Reachable inTurn c ∧ c.Sound inTurn first ∧ c.session.symmetricKey.isSome ∧
      c.session.publicKey.isSome ∧ c.session.state = .keyEstablished := by
  let c₀ : Client (List Stream) := .new
    [heedful [.data ([3, 52, 8, 16, 0, 0, 0] ++ List.replicate 16 7)],
      heedful [.data ([3, 54, 8, 32, 0, 0, 0] ++ List.replicate 32 7)]]
  have hrun : (Action.ended (perform inTurn (.register "ada") c₀)).any (fun p₁ =>
      (Action.ended (perform inTurn .exchangeKeys p₁.2)).any fun p₂ =>
        (Action.ended (perform inTurn (.transfer [0x61]) p₂.2)).any fun p₃ =>
          p₃.2.session.symmetricKey.isSome && p₃.2.session.publicKey.isSome &&
            decide (p₃.2.session.state = .keyEstablished)) = true := by
    decide +kernel
  obtain ⟨⟨r₁, c₁⟩, h₁, hrun⟩ := (Option.any_eq_true _ _).mp hrun
  obtain ⟨⟨r₂, c₂⟩, h₂, hrun⟩ := (Option.any_eq_true _ _).mp hrun
  obtain ⟨⟨r₃, c₃⟩, h₃, hrun⟩ := (Option.any_eq_true _ _).mp hrun
  have hc : Reachable inTurn c₃ := .step (.step (.step (.new _) h₁) h₂) h₃
  simp only [Bool.and_eq_true, decide_eq_true_eq] at hrun
  obtain ⟨first, hsound⟩ := sound_of_reachable hc
  exact ⟨c₃, first, hc, hsound, hrun.1.1, hrun.1.2, hrun.2⟩

end Runs

end Client

end Courier
