import Courier.Proofs.Client.SessionInvariant

namespace Courier

/-- The act sends a file to the server. -/
def Act.IsUpload : Act → Prop
  | .roundTrip trip => trip.request.code = .sendFile
  | _ => False

/-- In the journal a key is unwrapped from the answer to a request in the name of the identity, and
the key is still to be used. -/
def NotesKey (journal : List Act) (id : ClientId) (key : SymmetricKey) : Prop :=
  ∃ before trip wrapped privateKey after,
    journal = before ++ [.roundTrip trip, .unwrappedKey privateKey wrapped (.ok key.bytes)] ++ after ∧
      trip.request.id = id ∧ trip.BringsKey wrapped ∧ ∀ act ∈ after, ¬act.EndsKey

/-- What happened since the world `first`, which leaves the world `last`, has the key provider unwrap
the key from the answer to a request in the name of the identity, and the key is still to be used. -/
def IsIssued {ω : Type} (env : Environment ω) (first : ω) (journal : List Act) (last : ω)
    (id : ClientId) (key : SymmetricKey) : Prop :=
  ∃ before trip wrapped privateKey after m w w',
    journal = before ++ [.roundTrip trip, .unwrappedKey privateKey wrapped (.ok key.bytes)] ++ after ∧
      History env first before m ∧ trip.Occurs env m w ∧ trip.request.id = id ∧
      trip.BringsKey wrapped ∧ env.unwrapKey privateKey wrapped w = (.ok key.bytes, w') ∧
      History env w' after last ∧ ∀ act ∈ after, ¬act.EndsKey

/-- What is noted of a key is what happened. -/
theorem NotesKey.isIssued {ω : Type} {env : Environment ω} {first last : ω} {journal : List Act}
    {id : ClientId} {key : SymmetricKey} (h : NotesKey journal id key)
    (hhistory : History env first journal last) : IsIssued env first journal last id key := by
  obtain ⟨before, trip, wrapped, privateKey, after, rfl, hid, hbrings, hquiet⟩ := h
  obtain ⟨w', hissued, hafter⟩ := History.append_iff.mp hhistory
  obtain ⟨m, hbefore, hpair⟩ := History.append_iff.mp hissued
  obtain ⟨w, htrip, hlast⟩ := History.cons_iff.mp hpair
  exact ⟨before, trip, wrapped, privateKey, after, m, w, w', rfl, hbefore, htrip, hid, hbrings,
    History.singleton_iff.mp hlast, hafter, hquiet⟩

theorem NotesKey.append {journal acts : List Act} {id : ClientId} {key : SymmetricKey}
    (h : NotesKey journal id key) (ha : ∀ act ∈ acts, ¬act.EndsKey) :
    NotesKey (journal ++ acts) id key := by
  obtain ⟨before, trip, wrapped, privateKey, after, rfl, hid, hbrings, hafter⟩ := h
  refine ⟨before, trip, wrapped, privateKey, after ++ acts, ?_, hid, hbrings,
    List.forall_mem_append.mpr ⟨hafter, ha⟩⟩
  rw [List.append_assoc _ after]

/-- What the operation is to upload: the content that it is given, or that of the file at its path. -/
def Operation.Uploads (acts : List Act) (content : Bytes) : Operation → Prop
  | .uploadOnce _ given => content = given
  | .transfer path => .loadedFile path (.ok content) ∈ acts
  | _ => False

/-- Each file that is sent was encrypted just before, with a key that is issued to the identity in the
request, and from a content that is `plain`. -/
def SendsFresh (plain : Bytes → Prop) (journal acts : List Act) : Prop :=
  ∀ before trip after, acts = before ++ .roundTrip trip :: after →
    ∀ id file sealed, trip.request = .sendFile id file sealed →
      ∃ earlier key content, before = earlier ++ [.encrypted key content (.ok sealed)] ∧
        NotesKey (journal ++ earlier) id key ∧ plain content

namespace SendsFresh

variable {plain plain' : Bytes → Prop} {journal acts as bs : List Act}

theorem of_no_upload (ha : ∀ act ∈ acts, ¬act.IsUpload) : SendsFresh plain journal acts := by
  intro before trip after hacts id file sealed hrequest
  have hupload : (Act.roundTrip trip).IsUpload := by
    change trip.request.code = .sendFile
    rw [hrequest]
    rfl
  have hmem : Act.roundTrip trip ∈ acts := by
    rw [hacts]
    simp
  exact absurd hupload (ha _ hmem)

theorem append (has : SendsFresh plain journal as) (hbs : SendsFresh plain (journal ++ as) bs) :
    SendsFresh plain journal (as ++ bs) := by
  intro before trip after hacts id file sealed hrequest
  rcases append_eq_middle hacts with ⟨rest, hrest, -⟩ | ⟨since, rfl, hsince⟩
  · exact has before trip rest hrest id file sealed hrequest
  · obtain ⟨earlier, key, content, rfl, hkey, hplain⟩ :=
      hbs since trip after hsince id file sealed hrequest
    rw [List.append_assoc journal] at hkey
    exact ⟨as ++ earlier, key, content, (List.append_assoc ..).symm, hkey, hplain⟩

theorem mono (h : SendsFresh plain journal acts) (hplain : ∀ content, plain content → plain' content) :
    SendsFresh plain' journal acts := by
  intro before trip after hacts id file sealed hrequest
  obtain ⟨earlier, key, content, hbefore, hkey, hcontent⟩ :=
    h before trip after hacts id file sealed hrequest
  exact ⟨earlier, key, content, hbefore, hkey, hplain content hcontent⟩

end SendsFresh

/-- The session's key is issued to the session's identity. -/
def KeyIssued (s : Session) (journal : List Act) : Prop :=
  ∀ key, s.symmetricKey = some key → NotesKey journal s.id key

/-- After `journal` the acts send files under keys in use only, and leave a session with such a key
or with none. -/
structure KeysFresh (plain : Bytes → Prop) (journal acts : List Act) (t : Session) : Prop where
  issued : KeyIssued t (journal ++ acts)
  sent : SendsFresh plain journal acts

namespace KeysFresh

variable {plain : Bytes → Prop} {s t : Session} {journal acts as bs : List Act}

theorem append (has : KeysFresh plain journal as s) (hbs : KeysFresh plain (journal ++ as) bs t) :
    KeysFresh plain journal (as ++ bs) t := by
  obtain ⟨hissued, hsent⟩ := hbs
  rw [List.append_assoc] at hissued
  exact ⟨hissued, has.sent.append hsent⟩

/-- Acts that neither end the use of a key nor send a file. -/
theorem quiet (hs : KeyIssued s journal) (hid : t.id = s.id) (hkey : t.symmetricKey = s.symmetricKey)
    (he : ∀ act ∈ acts, ¬act.EndsKey) (hu : ∀ act ∈ acts, ¬act.IsUpload) :
    KeysFresh plain journal acts t := by
  refine ⟨?_, .of_no_upload hu⟩
  intro key hsome
  rw [hkey] at hsome
  rw [hid]
  exact (hs key hsome).append he

/-- Without a session key nothing has to be issued. -/
theorem keyless (ht : t.symmetricKey = none) (hu : ∀ act ∈ acts, ¬act.IsUpload) :
    KeysFresh plain journal acts t := by
  refine ⟨?_, .of_no_upload hu⟩
  intro key hsome
  rw [ht] at hsome
  cases hsome

/-- A file is sent under the session's identity, right after it was encrypted with its key. -/
theorem upload (hs : KeyIssued s journal) {job : Job} (hfits : job.FitsSession s)
    (hplain : plain job.content) {sealed : Bytes} {trip : RoundTrip}
    (hrequest : trip.request = .sendFile job.id job.file sealed) (hends : ¬trip.EndsKey) :
    KeysFresh plain journal (Deed.acts (Deed.upload job sealed trip)) s := by
  obtain ⟨hid, hkey⟩ := hfits.fields
  have hissued : NotesKey journal job.id job.key := by
    rw [← hid]
    exact hs job.key hkey
  refine ⟨?_, ?_⟩
  · intro key hsome
    apply (hs key hsome).append
    simp [Deed.upload, Act.EndsKey, Act.ChangesIdentity, hends]
  · intro before other after hacts id file sealed' hsend
    have hsplit : [Act.encrypted job.key job.content (.ok sealed)] ++ .roundTrip trip :: [] =
        before ++ .roundTrip other :: after := hacts
    rcases append_eq_middle hsplit with ⟨rest, hrest, -⟩ | ⟨since, rfl, hsince⟩
    · rcases List.append_eq_singleton_iff.mp hrest.symm with ⟨-, hact⟩ | ⟨-, hnil⟩
      · cases hact
      · cases hnil
    · rcases List.append_eq_singleton_iff.mp hsince.symm with ⟨rfl, hact⟩ | ⟨-, hnil⟩
      · cases hact
        obtain ⟨rfl, rfl, rfl⟩ := Request.sendFile.inj (hrequest.symm.trans hsend)
        refine ⟨[], job.key, job.content, rfl, ?_, hplain⟩
        rw [List.append_nil]
        exact hissued
      · cases hnil

end KeysFresh

namespace Client

open Deed

variable {plain : Bytes → Prop} {s : Session} {journal : List Act} {deeds : List Deed} {file : Name}
  {content : Bytes} {retries : UInt32}

theorem RestoreCourse.keysFresh {y : Except Stop ClientId} (h : RestoreCourse deeds y)
    (hs : KeyIssued s journal) : KeysFresh plain journal (acts deeds) (left s deeds) := by
  cases h with
  | failed | missing =>
    exact .quiet hs rfl rfl (by simp [Act.EndsKey, Act.ChangesIdentity]) (by simp [Act.IsUpload])
  | useless | restored => exact .keyless rfl (by simp [Act.IsUpload])

/-- A new identity starts without a session key. -/
theorem RegisterCourse.keysFresh {username : String} {y : Except Stop ClientId}
    (h : RegisterCourse s username deeds y) (hs : KeyIssued s journal) :
    KeysFresh plain journal (acts deeds) (left s deeds) := by
  cases h with
  | invalid => exact .quiet hs rfl rfl (by simp) (by simp)
  | lost _ hrequest houtcome | refused _ hrequest houtcome | keyless _ hrequest houtcome
  | unstored _ hrequest houtcome =>
    apply KeysFresh.quiet hs rfl rfl
    · simp [Act.EndsKey, RoundTrip.EndsKey, Act.ChangesIdentity, houtcome]
    · simp [Act.IsUpload, hrequest, Request.code]
  | adopted _ hrequest =>
    exact .keyless rfl (by simp [Act.IsUpload, hrequest, Request.code])

/-- Whichever course a request for a key takes, the key that is left is in use. -/
theorem KeyCourse.keysFresh {request : Request} {y : Except Stop Unit}
    (h : KeyCourse s request deeds y) (hid : request.id = s.id) (hcode : request.code ≠ .sendFile)
    (hs : KeyIssued s journal) : KeysFresh plain journal (acts deeds) (left s deeds) := by
  cases h with
  | lost hrequest houtcome =>
    apply KeysFresh.quiet hs rfl rfl
    · simp [Act.EndsKey, RoundTrip.EndsKey, houtcome]
    · simp [Act.IsUpload, hrequest, hcode]
  | denied hrequest => exact .keyless rfl (by simp [Act.IsUpload, hrequest, hcode])
  | @taken trip wrapped deeds y hrequest hbrings htake =>
    rw [left_noted, acts_noted]
    cases htake with
    | ownerless | unusable =>
      rw [left_append, left_echo, acts_append, acts_echo]
      exact .keyless rfl (by simp [Act.IsUpload, hrequest, hcode])
    | @installed echoed privateKey key news hp =>
      rw [left_append, left_echo, acts_append, acts_echo]
      refine ⟨?_, .of_no_upload (by simp [Act.IsUpload, hrequest, hcode])⟩
      intro other hother
      cases hother
      refine ⟨journal, trip, wrapped, privateKey, [], (List.append_nil _).symm, ?_, hbrings, by simp⟩
      rw [hrequest, hid]
      rfl

theorem KeySource.keysFresh {y : Except Stop PublicKey} (h : KeySource s deeds y)
    (hs : KeyIssued s journal) : KeysFresh plain journal (acts deeds) (left s deeds) := by
  cases h with
  | cached | ownerless => exact .quiet hs rfl rfl (by simp) (by simp)
  | underived | derived =>
    exact .quiet hs rfl rfl (by simp [Act.EndsKey, Act.ChangesIdentity]) (by simp [Act.IsUpload])

theorem ExchangeCourse.keysFresh {y : Except Stop Unit} (h : ExchangeCourse s deeds y)
    (hs : KeyIssued s journal) : KeysFresh plain journal (acts deeds) (left s deeds) := by
  cases h with
  | unregistered => exact .quiet hs rfl rfl (by simp) (by simp)
  | unasked _ hsource => exact hsource.keysFresh hs
  | asked _ hsource hcourse =>
    have hprepared : KeysFresh plain journal _ _ := hsource.keysFresh hs
    rw [left_append, acts_append]
    exact hprepared.append
      (hcourse.keysFresh hsource.sameOwner.id_eq.symm (by nofun) hprepared.issued)

theorem ReconnectCourse.keysFresh {y : Except Stop Unit} (h : ReconnectCourse s deeds y)
    (hs : KeyIssued s journal) : KeysFresh plain journal (acts deeds) (left s deeds) := by
  cases h with
  | unregistered => exact .quiet hs rfl rfl (by simp) (by simp)
  | asked _ hcourse => exact hcourse.keysFresh rfl (by nofun) hs

theorem verdict_code_ne (verdict : Verdict) (id : ClientId) (file : Name) :
    (Request.verdict verdict id file).code ≠ .sendFile := by
  cases verdict <;> simp [Request.code, Verdict.code]

/-- The content is encrypted and sent at once, so that nothing can come between. -/
theorem TryCourse.keysFresh {y : Except Stop Receipt} (h : TryCourse s file content deeds y)
    (hplain : plain content) (hs : KeyIssued s journal) : KeysFresh plain journal (acts deeds) s := by
  cases h with
  | unready => exact .quiet hs rfl rfl (by simp) (by simp)
  | unsealed | unsendable =>
    exact .quiet hs rfl rfl (by simp [Act.EndsKey, Act.ChangesIdentity]) (by simp [Act.IsUpload])
  | lost hfits hrequest houtcome =>
    exact .upload hs hfits hplain hrequest (RoundTrip.not_endsKey_of_error houtcome)
  | accepted hfits hrequest hreports =>
    exact .upload hs hfits hplain hrequest hreports.not_endsKey
  | rejected hfits hrequest hreports _ hnotice hpassed =>
    have hsent : KeysFresh plain journal _ s :=
      .upload hs hfits hplain hrequest hreports.not_endsKey
    rw [acts_append]
    apply hsent.append
    apply KeysFresh.quiet hsent.issued rfl rfl
    · simpa [Act.EndsKey] using RoundTrip.not_endsKey_of_none hpassed
    · simp [Act.IsUpload, hnotice, verdict_code_ne]
  | unnoticed hfits hrequest hreports _ hnotice hlost =>
    have hsent : KeysFresh plain journal _ s :=
      .upload hs hfits hplain hrequest hreports.not_endsKey
    rw [acts_append]
    apply hsent.append
    apply KeysFresh.quiet hsent.issued rfl rfl
    · simpa [Act.EndsKey] using RoundTrip.not_endsKey_of_error hlost
    · simp [Act.IsUpload, hnotice, verdict_code_ne]

theorem VerdictCourse.keysFresh {verdict : Verdict} {y : Except Stop Unit}
    (h : VerdictCourse s verdict file deeds y) (hs : KeyIssued s journal) :
    KeysFresh plain journal (acts deeds) s := by
  apply KeysFresh.quiet hs rfl rfl h.not_endsKey
  cases h with
  | unready => simp
  | lost _ hrequest | acknowledged _ hrequest => simp [Act.IsUpload, hrequest, verdict_code_ne]

theorem UploadCourse.keysFresh {remaining made : Nat} {y : Except Stop Delivery}
    (h : UploadCourse s file content remaining made deeds y) (hplain : plain content)
    (hs : KeyIssued s journal) : KeysFresh plain journal (acts deeds) s := by
  refine h.all (M := fun ds => ∀ {before}, KeyIssued s before → KeysFresh plain before (acts ds) s)
    ?_ (fun h _ => h.keysFresh hplain) (fun h _ _ => h.keysFresh) ?_ hs
  · intro ds es hds hes before hbefore
    rw [acts_append]
    exact (hds hbefore).append (hes (hds hbefore).issued)
  · intro _ _ _ before hbefore
    exact .quiet hbefore rfl rfl (by simp) (by simp)

theorem WorkCourse.keysFresh {path : Bytes} {y : Except Stop Delivery}
    (h : WorkCourse retries s path file deeds y)
    (hplain : ∀ content, .loadedFile path (.ok content) ∈ acts deeds → plain content)
    (hs : KeyIssued s journal) : KeysFresh plain journal (acts deeds) s := by
  have hloaded (result : Except TransferError Bytes) :
      KeysFresh plain journal [.loadedFile path result] s :=
    .quiet hs rfl rfl (by simp [Act.EndsKey, Act.ChangesIdentity]) (by simp [Act.IsUpload])
  cases h with
  | unread => exact hloaded _
  | @read content deeds y hupload =>
    have hcontent : plain content := hplain content (.head _)
    exact (hloaded (.ok content)).append (hupload.keysFresh hcontent (hloaded _).issued)

theorem TransferCourse.keysFresh {path : Bytes} {r : Except TransferError Delivery}
    (h : TransferCourse retries s path deeds (r.mapError .failed))
    (hplain : ∀ content, .loadedFile path (.ok content) ∈ acts deeds → plain content)
    (hs : KeyIssued s journal) : KeysFresh plain journal (acts deeds) (left s deeds) := by
  rcases h.refused_or_closed with ⟨rfl, -⟩ | ⟨file, t, work, m, -, hbegin, hwork, rfl⟩
  · exact .quiet hs rfl rfl (by simp) (by simp)
  · obtain ⟨-, -, rfl⟩ := Session.eq_of_beginTransfer hbegin
    rw [acts_changed, acts_changed, acts_append] at hplain ⊢
    rw [left_changed, left_changed, left_append, hwork.left_eq]
    have hbegun : KeyIssued { s.withPendingFile path with state := .transferring } journal := hs
    have hdone : KeysFresh plain journal (acts work) _ :=
      hwork.keysFresh (fun content hmem => hplain content (List.mem_append_left _ hmem)) hbegun
    apply hdone.append
    apply KeysFresh.quiet hdone.issued
    · change (Session.closed _ r).id = _
      rw [Session.closed_eq rfl]
    · change (Session.closed _ r).symmetricKey = _
      rw [Session.closed_eq rfl]
    · simp [Deed.closing]
    · simp [Deed.closing]

/-- Only a transfer and a single upload send a file, and what they send is what they are to upload. -/
theorem OperationCourse.keysFresh {op : Operation} {r : Except TransferError Reply}
    (h : OperationCourse retries s op deeds (r.mapError .failed)) (hs : KeyIssued s journal) :
    KeysFresh (op.Uploads (acts deeds) ·) journal (acts deeds) (left s deeds) := by
  generalize hz : (r.mapError .failed : Except Stop _) = z at h
  cases h with
  | restore h => exact h.keysFresh hs
  | register h => exact h.keysFresh hs
  | exchangeKeys h => exact h.keysFresh hs
  | reconnect h => exact h.keysFresh hs
  | transfer h =>
    obtain ⟨y, rfl, -⟩ := Action.eq_map_of_mapError_failed hz
    exact h.keysFresh (fun _ hmem => hmem) hs
  | uploadOnce h =>
    rw [h.left_eq]
    exact h.keysFresh rfl hs
  | giveUp h =>
    rw [h.left_eq]
    exact h.keysFresh hs

section Keyless

variable {ω : Type} {env : Environment ω} {c d : Client ω}

/-- Without a session key nothing is done about a file. -/
theorem uploadOnce_of_keyless (hnone : c.session.symmetricKey = none)
    {r : Except TransferError Receipt} (h : (uploadOnce env file content).Returns c r d) :
    (∃ e, r = .error e) ∧ d = c := by
  have hkeyless {job : Job} (hfits : job.FitsSession c.session) : False := by
    obtain ⟨-, hkey⟩ := hfits.fields
    cases hnone.symm.trans hkey
  obtain ⟨deeds, hcourse, hd⟩ := (uploadOnce_follows _ file content).of_returns h
  generalize hy : (r.mapError .failed : Except Stop _) = y at hcourse
  cases hcourse with
  | unready =>
    cases r <;> cases hy
    cases hd
    exact ⟨⟨_, rfl⟩, rfl⟩
  | unsealed hfits | unsendable hfits | lost hfits | accepted hfits | rejected hfits
  | unnoticed hfits => exact (hkeyless hfits).elim

theorem transfer_of_keyless (hnone : c.session.symmetricKey = none) {path : Bytes}
    {r : Except TransferError Delivery} (h : (transfer env path).Returns c r d) :
    (∃ e, r = .error e) ∧ d.journal = c.journal ∧ d.world = c.world := by
  obtain ⟨deeds, hcourse, hd⟩ := (transfer_follows _ path).of_returns h
  rcases hcourse.refused_or_closed with ⟨rfl, e, he, -⟩ | ⟨file, t, work, m, -, hbegin, -⟩
  · exact ⟨⟨e, he⟩, hd.notes.journal_eq.trans (List.append_nil _),
      History.nil_iff.mp hd.notes.history⟩
  · obtain ⟨-, hsome, -⟩ := Session.eq_of_beginTransfer hbegin
    have hkey : c.session.symmetricKey.isSome := hsome
    rw [hnone] at hkey
    cases hkey

end Keyless

section Runs

variable {ω : Type} {env : Environment ω} {c : Client ω}

theorem Reachable.keysFresh (h : Reachable env c) :
    KeysFresh (fun _ => True) [] c.journal c.session := by
  induction h with
  | new world => exact .keyless rfl (by simp [Client.new])
  | step _ hop ih =>
    obtain ⟨deeds, hcourse, hd⟩ := (perform_follows _ _).of_returns hop
    rw [hd.session_eq, hd.notes.journal_eq]
    obtain ⟨hissued, hsent⟩ := hcourse.keysFresh ih.issued
    exact ih.append ⟨hissued, hsent.mono fun _ _ => trivial⟩

/-- Whatever is uploaded was encrypted just before with the key that came last from the server, and it
is sent in the name of the identity for which that key was asked. What an operation uploads is the
content that it is given, or that of the file it is to transfer. Where there is no such key, because
none came or because it is no longer to be used, an upload fails before any connection is opened. -/
theorem uploads_fresh (h : Reachable env c) : ∃ first, History env first c.journal c.world ∧
    (∀ before trip after, c.journal = before ++ .roundTrip trip :: after →
      ∀ id file sealed, trip.request = .sendFile id file sealed → trip.Held env ∧
        ∃ earlier key content w w', before = earlier ++ [.encrypted key content (.ok sealed)] ∧
          History env first earlier w ∧ env.encrypt key content w = (.ok sealed, w') ∧
          IsIssued env first earlier w id key) ∧
    (∀ op r d, (perform env op).Returns c r d → ∃ acts, d.journal = c.journal ++ acts ∧
      History env c.world acts d.world ∧ ∀ before trip after, acts = before ++ .roundTrip trip :: after →
        ∀ id file sealed, trip.request = .sendFile id file sealed →
          ∃ earlier key content, before = earlier ++ [.encrypted key content (.ok sealed)] ∧
            op.Uploads acts content) ∧
    ((∀ id key, ¬IsIssued env first c.journal c.world id key) →
      (∀ path r d, (transfer env path).Returns c r d →
        (∃ e, r = .error e) ∧ d.journal = c.journal ∧ d.world = c.world) ∧
      ∀ file content r d, (uploadOnce env file content).Returns c r d →
        (∃ e, r = .error e) ∧ d.journal = c.journal ∧ d.world = c.world) := by
  obtain ⟨first, hrecorded⟩ := h.recorded
  obtain ⟨hissued, hsent⟩ := h.keysFresh
  refine ⟨first, hrecorded, ?_, ?_, ?_⟩
  · intro before trip after hj id file sealed hrequest
    obtain ⟨earlier, key, content, rfl, hnoted, -⟩ :=
      hsent before trip after hj id file sealed hrequest
    have hheld : trip.Held env := by
      apply h.held
      rw [hj, trips_append]
      exact List.mem_append_right _ (.head _)
    rw [hj] at hrecorded
    obtain ⟨w', hbefore, -⟩ := History.append_iff.mp hrecorded
    obtain ⟨w, hearlier, hencrypt⟩ := History.append_iff.mp hbefore
    exact ⟨hheld, earlier, key, content, w, w', rfl, hearlier, History.singleton_iff.mp hencrypt,
      hnoted.isIssued hearlier⟩
  · intro op r d hr
    obtain ⟨deeds, hcourse, hd⟩ := (perform_follows _ _).of_returns hr
    obtain ⟨hjournal, hhistory⟩ := hd.notes
    refine ⟨Deed.acts deeds, hjournal, hhistory, ?_⟩
    intro before trip after hacts id file sealed hrequest
    obtain ⟨earlier, key, content, hbefore, -, huploads⟩ :=
      (hcourse.keysFresh hissued).sent before trip after hacts id file sealed hrequest
    exact ⟨earlier, key, content, hbefore, huploads⟩
  · intro hnever
    have hnone : c.session.symmetricKey = none := by
      cases hkey : c.session.symmetricKey with
      | none => rfl
      | some key => exact absurd ((hissued key hkey).isIssued hrecorded) (hnever _ key)
    refine ⟨?_, ?_⟩
    · intro path r d hr
      exact transfer_of_keyless hnone hr
    · intro file content r d hr
      obtain ⟨he, rfl⟩ := uploadOnce_of_keyless hnone hr
      exact ⟨he, rfl, rfl⟩

/-- A client registers, exchanges keys and uploads a file, and the answer to that is lost. -/
theorem uploads_fresh_sent :
    ∃ (c : Client (List Stream)) (first : List Stream) (before after : List Act) (trip : RoundTrip),
      Reachable inTurn c ∧ History inTurn first c.journal c.world ∧
        c.journal = before ++ .roundTrip trip :: after ∧ trip.left.isSome ∧ trip.Held inTurn ∧
        ∃ id file sealed earlier key content w w', trip.request = .sendFile id file sealed ∧
          before = earlier ++ [.encrypted key content (.ok sealed)] ∧
          inTurn.encrypt key content w = (.ok sealed, w') ∧
          IsIssued inTurn first earlier w id key := by
  let c₀ : Client (List Stream) := .new
    [heedful [.data ([3, 52, 8, 16, 0, 0, 0] ++ List.replicate 16 7)],
      heedful [.data ([3, 54, 8, 32, 0, 0, 0] ++ List.replicate 32 7)], heedful []]
  have hrun : (Action.ended (perform inTurn (.register "ada") c₀)).any (fun p₁ =>
      (Action.ended (perform inTurn .exchangeKeys p₁.2)).any fun p₂ =>
        (Action.ended (perform inTurn (.uploadOnce .empty [1, 2, 3]) p₂.2)).any fun p₃ =>
          (trips p₃.2.journal).any fun trip =>
            trip.left.isSome && decide (trip.request.code = .sendFile)) = true := by
    decide +kernel
  obtain ⟨⟨r₁, c₁⟩, h₁, hrun⟩ := (Option.any_eq_true _ _).mp hrun
  obtain ⟨⟨r₂, c₂⟩, h₂, hrun⟩ := (Option.any_eq_true _ _).mp hrun
  obtain ⟨⟨r₃, c⟩, h₃, hrun⟩ := (Option.any_eq_true _ _).mp hrun
  obtain ⟨trip, htrip, hrun⟩ := List.any_eq_true.mp hrun
  simp only [Bool.and_eq_true, decide_eq_true_eq] at hrun
  obtain ⟨hleft, hcode⟩ := hrun
  have hc : Reachable inTurn c := .step (.step (.step (.new _) h₁) h₂) h₃
  obtain ⟨before, after, hj⟩ := List.append_of_mem (mem_of_mem_trips htrip)
  obtain ⟨first, hrecorded, hsent, -⟩ := uploads_fresh hc
  cases hrequest : trip.request with
  | sendFile id file sealed =>
    obtain ⟨hheld, earlier, key, content, w, w', hbefore, -, hencrypt, hissued⟩ :=
      hsent before trip after hj id file sealed hrequest
    exact ⟨c, first, before, after, trip, hc, hrecorded, hj, hleft, hheld, id, file, sealed, earlier,
      key, content, w, w', hrequest, hbefore, hencrypt, hissued⟩
  | verdict verdict id file =>
    rw [hrequest] at hcode
    exact absurd hcode (verdict_code_ne verdict id file)
  | registration | sendPublicKey | reconnect =>
    rw [hrequest] at hcode
    cases hcode

end Runs

end Client

end Courier
