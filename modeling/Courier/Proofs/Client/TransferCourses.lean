import Courier.Client.Transfer
import Courier.Proofs.Client.Deeds

namespace Courier

namespace RoundTrip

/-- The server acknowledged an upload under a name, with its size and the checksum it found. -/
def Reports (trip : RoundTrip) (file : Name) (size checksum : UInt32) : Prop :=
  ∃ echoed, trip.outcome = .ok (some (.fileDelivered echoed size file checksum))

/-- The server acknowledged a verdict. -/
def IsAcknowledged (trip : RoundTrip) : Prop :=
  ∃ echoed, trip.outcome = .ok (some (.messageDelivered echoed))

end RoundTrip

/-- What a transfer is about: a content that goes out under a name, and the client it is from. -/
structure Job where
  id : ClientId
  key : SymmetricKey
  file : Name
  content : Bytes

/-- The session has the identity and the key for the job. -/
def Job.FitsSession (job : Job) (s : Session) : Prop :=
  s.requireId = .ok job.id ∧ s.requireSymmetricKey = .ok job.key

theorem Job.FitsSession.fields {job : Job} {s : Session} (h : job.FitsSession s) :
    s.id = job.id ∧ s.symmetricKey = some job.key := by
  obtain ⟨hid, hkey⟩ := h
  unfold Session.requireId at hid
  unfold Session.requireSymmetricKey at hkey
  refine ⟨?_, ?_⟩
  · split at hid
    · exact Except.ok.inj hid
    · cases hid
  · split at hkey
    · rename_i hsome
      rw [hsome, Except.ok.inj hkey]
    · cases hkey

/-- What is told of the result of a transfer. -/
def Event.closing (file : Name) : Except TransferError Delivery → Event
  | .ok delivery => .transferConfirmed delivery.file delivery.attempts delivery.checksum
  | .error (.transferAbandoned attempts) => .transferAbandoned file attempts
  | .error e => .transferInterrupted file e

theorem Event.closing_of_ne {file : Name} {e : TransferError}
    (h : ∀ attempts, e ≠ .transferAbandoned attempts) :
    closing file (.error e) = .transferInterrupted file e := by
  cases e with
  | transferAbandoned attempts => exact absurd rfl (h attempts)
  | _ => rfl

/-- What a transfer gains by its result. -/
def Metrics.closing : Except TransferError Delivery → Metrics
  | .ok _ => (0 : Metrics).transferCompleted
  | .error (.transferAbandoned _) => (0 : Metrics).transferAbandoned
  | .error _ => 0

theorem Metrics.closing_of_ne {e : TransferError}
    (h : ∀ attempts, e ≠ .transferAbandoned attempts) : closing (.error e) = 0 := by
  cases e with
  | transferAbandoned attempts => exact absurd rfl (h attempts)
  | _ => rfl

/-- A transfer that is refused, or breaks off, gains nothing. -/
theorem Metrics.closing_of_isPlain {e : TransferError} (h : e.IsPlain) : closing (.error e) = 0 := by
  apply closing_of_ne
  rintro attempts rfl
  exact h

theorem Metrics.crcMismatches_closing (r : Except TransferError Delivery) :
    (closing r).crcMismatches = 0 := by
  unfold closing
  split <;> rfl

namespace Deed

/-- A content is encrypted and sent. -/
def upload (job : Job) (sealed : Bytes) (trip : RoundTrip) : List Deed :=
  [.noted (.encrypted job.key job.content (.ok sealed)), .counted (0 : Metrics).uploadAttempt,
    .noted (.roundTrip trip)]

/-- A transfer is closed by its result. -/
def closing (s : Session) (file : Name) (r : Except TransferError Delivery) : List Deed :=
  [.changed (s.closed r), .counted (Metrics.closing r), .told (Event.closing file r)]

end Deed

namespace Client

open Courier.Action

variable {ω : Type} {env : Environment ω} {s : Session} {file : Name} {content : Bytes}

/-- What comes of one upload. -/
inductive TryCourse (s : Session) (file : Name) (content : Bytes) :
    List Deed → Except Stop Receipt → Prop where
  | unready {e : TransferError} :
    (s.requireId = .error e ∨ s.requireSymmetricKey = .error e) →
      TryCourse s file content [] (.error (.failed e))
  | unsealed {id : ClientId} {key : SymmetricKey} {e : TransferError} :
    Job.FitsSession ⟨id, key, file, content⟩ s →
      TryCourse s file content [.noted (.encrypted key content (.error e))] (.error (.failed e))
  | unsendable {id : ClientId} {key : SymmetricKey} {sealed : Bytes} {e : TransferError} :
    Job.FitsSession ⟨id, key, file, content⟩ s → Request.upload id file sealed = .error e →
      TryCourse s file content [.noted (.encrypted key content (.ok sealed))] (.error (.failed e))
  | lost {id : ClientId} {key : SymmetricKey} {sealed : Bytes} {upload : RoundTrip} {stop : Stop} :
    Job.FitsSession ⟨id, key, file, content⟩ s → upload.request = .sendFile id file sealed →
      upload.outcome = .error stop →
        TryCourse s file content (Deed.upload ⟨id, key, file, content⟩ sealed upload) (.error stop)
  | accepted {id : ClientId} {key : SymmetricKey} {sealed : Bytes} {upload : RoundTrip}
      {delivered : Name} {size : UInt32} :
    Job.FitsSession ⟨id, key, file, content⟩ s → upload.request = .sendFile id file sealed →
      upload.Reports delivered size (Checksum.crc32 content) →
        TryCourse s file content (Deed.upload ⟨id, key, file, content⟩ sealed upload)
          (.ok ⟨delivered, size, Checksum.crc32 content⟩)
  | rejected {id : ClientId} {key : SymmetricKey} {sealed : Bytes} {upload notice : RoundTrip}
      {delivered : Name} {size checksum : UInt32} :
    Job.FitsSession ⟨id, key, file, content⟩ s → upload.request = .sendFile id file sealed →
      upload.Reports delivered size checksum → checksum ≠ Checksum.crc32 content →
      notice.request = .verdict .invalid id file → notice.outcome = .ok none →
        TryCourse s file content
          (Deed.upload ⟨id, key, file, content⟩ sealed upload ++ [.noted (.roundTrip notice)])
          (.error (.failed (.integrityMismatch (Checksum.crc32 content) checksum)))
  | unnoticed {id : ClientId} {key : SymmetricKey} {sealed : Bytes} {upload notice : RoundTrip}
      {delivered : Name} {size checksum : UInt32} {stop : Stop} :
    Job.FitsSession ⟨id, key, file, content⟩ s → upload.request = .sendFile id file sealed →
      upload.Reports delivered size checksum → checksum ≠ Checksum.crc32 content →
      notice.request = .verdict .invalid id file → notice.outcome = .error stop →
        TryCourse s file content
          (Deed.upload ⟨id, key, file, content⟩ sealed upload ++ [.noted (.roundTrip notice)])
          (.error stop)

/-- What comes of a verdict that the server has to acknowledge. -/
inductive VerdictCourse (s : Session) (verdict : Verdict) (file : Name) :
    List Deed → Except Stop Unit → Prop where
  | unready {e : TransferError} :
    s.requireId = .error e → VerdictCourse s verdict file [] (.error (.failed e))
  | lost {id : ClientId} {trip : RoundTrip} {stop : Stop} :
    s.requireId = .ok id → trip.request = .verdict verdict id file →
      trip.outcome = .error stop →
        VerdictCourse s verdict file [.noted (.roundTrip trip)] (.error stop)
  | acknowledged {id : ClientId} {trip : RoundTrip} :
    s.requireId = .ok id → trip.request = .verdict verdict id file → trip.IsAcknowledged →
      VerdictCourse s verdict file [.noted (.roundTrip trip)] (.ok ())

/-- What comes of uploading until the checksums agree, with so many uploads left and so many made. -/
inductive UploadCourse (s : Session) (file : Name) (content : Bytes) :
    Nat → Nat → List Deed → Except Stop Delivery → Prop where
  | abandoned {made : Nat} {deeds : List Deed} :
    VerdictCourse s .finalInvalid file deeds (.ok ()) →
      UploadCourse s file content 0 made deeds
        (.error (.failed (.transferAbandoned (UInt32.ofNat made))))
  | unheard {made : Nat} {deeds : List Deed} {stop : Stop} :
    VerdictCourse s .finalInvalid file deeds (.error stop) →
      UploadCourse s file content 0 made deeds (.error stop)
  | confirmed {remaining made : Nat} {ds es : List Deed} {receipt : Receipt} :
    TryCourse s file content ds (.ok receipt) → VerdictCourse s .valid file es (.ok ()) →
      UploadCourse s file content (remaining + 1) made (ds ++ es)
        (.ok ⟨receipt.file, made + 1, receipt.checksum, receipt.contentSize⟩)
  | unconfirmed {remaining made : Nat} {ds es : List Deed} {receipt : Receipt} {stop : Stop} :
    TryCourse s file content ds (.ok receipt) → VerdictCourse s .valid file es (.error stop) →
      UploadCourse s file content (remaining + 1) made (ds ++ es) (.error stop)
  | hung {remaining made : Nat} {deeds : List Deed} :
    TryCourse s file content deeds (.error .hung) →
      UploadCourse s file content (remaining + 1) made deeds (.error .hung)
  | brokenOff {remaining made : Nat} {deeds : List Deed} {e : TransferError} :
    TryCourse s file content deeds (.error (.failed e)) → e.isRetryable = false →
      UploadCourse s file content (remaining + 1) made deeds (.error (.failed e))
  | again {remaining made : Nat} {ds es : List Deed} {e : TransferError}
      {y : Except Stop Delivery} :
    TryCourse s file content ds (.error (.failed e)) → e.isRetryable = true →
      UploadCourse s file content remaining (made + 1) es y →
        UploadCourse s file content (remaining + 1) made
          (ds ++ .counted (0 : Metrics).crcMismatch ::
            .told (.checksumMismatch (made + 1) remaining e) :: es) y

/-- What comes of the work of a transfer that has begun. -/
inductive WorkCourse (retries : UInt32) (s : Session) (path : Bytes) (file : Name) :
    List Deed → Except Stop Delivery → Prop where
  | unread {e : TransferError} :
    WorkCourse retries s path file [.noted (.loadedFile path (.error e))] (.error (.failed e))
  | read {content : Bytes} {deeds : List Deed} {y : Except Stop Delivery} :
    UploadCourse s file content (Attempts.ofRetries retries).remaining
      (Attempts.ofRetries retries).used deeds y →
        WorkCourse retries s path file (.noted (.loadedFile path (.ok content)) :: deeds) y

/-- What comes of a transfer. -/
inductive TransferCourse (retries : UInt32) (s : Session) (path : Bytes) :
    List Deed → Except Stop Delivery → Prop where
  | unnamed {e : TransferError} : Path.wireName path = .error e →
    TransferCourse retries s path [.changed (s.withPendingFile path)] (.error (.failed e))
  | unready {file : Name} {e : TransferError} : Path.wireName path = .ok file →
    (s.withPendingFile path).beginTransfer = .error e →
      TransferCourse retries s path [.changed (s.withPendingFile path)] (.error (.failed e))
  | hung {file : Name} {t : Session} {deeds : List Deed} : Path.wireName path = .ok file →
    (s.withPendingFile path).beginTransfer = .ok t →
      WorkCourse retries t path file deeds (.error .hung) →
        TransferCourse retries s path
          (.changed (s.withPendingFile path) :: .changed t :: deeds) (.error .hung)
  | closed {file : Name} {t : Session} {deeds : List Deed} {r : Except TransferError Delivery}
      {m : Metrics} : Path.wireName path = .ok file →
    (s.withPendingFile path).beginTransfer = .ok t →
      WorkCourse retries t path file deeds (r.mapError .failed) →
        TransferCourse retries s path
          (.changed (s.withPendingFile path) :: .changed t ::
            (deeds ++ (Deed.closing t file r ++ [.told (.metricsSnapshot m)])))
          (r.mapError .failed)

theorem uploadOnce_follows (s : Session) (file : Name) (content : Bytes) :
    Follows env (uploadOnce env file content) s (TryCourse s file content) := by
  apply follows_require_bind
  · intro e he
    exact .unready (.inl he)
  intro id hid
  apply follows_require_bind
  · intro e he
    exact .unready (.inr he)
  intro key hkey
  have hfits : Job.FitsSession ⟨id, key, file, content⟩ s := ⟨hid, hkey⟩
  refine follows_consult_bind (fun _ => rfl) (fun _ => rfl) ?_ ?_
  · intro e
    exact .unsealed hfits
  intro sealed
  apply follows_ofExcept_bind
  · intro e he
    exact .unsendable hfits he
  intro request hrequest
  rw [eq_of_upload hrequest]
  refine follows_count_bind (fun m => m.uploadAttempt_eq) ?_
  apply follows_ask_bind rfl
  · intro upload stop hsent houtcome
    exact .lost hfits hsent houtcome
  intro upload p hsent houtcome hcode
  cases p with
  | fileDelivered echoed size delivered checksum =>
    simp only [judge]
    split
    · rename_i hsame
      subst hsame
      exact follows_pure (.accepted hfits hsent ⟨echoed, houtcome⟩)
    · rename_i hdiffers
      apply follows_tell_bind rfl
      · intro notice stop hnotice hlost
        exact .unnoticed hfits hsent ⟨echoed, houtcome⟩ hdiffers hnotice hlost
      · intro notice hnotice hpassed
        exact follows_fail (.rejected hfits hsent ⟨echoed, houtcome⟩ hdiffers hnotice hpassed)
  | _ => simp [ResponsePayload.code, ResponseCode.substitute?] at hcode

theorem sendVerdict_follows {verdict : Verdict} (hv : verdict ≠ .invalid) (s : Session)
    (file : Name) : Follows env (sendVerdict env verdict file) s (VerdictCourse s verdict file) := by
  apply follows_require_bind
  · intro e he
    exact .unready he
  · intro id hid
    apply follows_ask_bind (Request.expects_verdict hv id file)
    · intro trip stop hrequest houtcome
      exact .lost hid hrequest houtcome
    · intro trip p hrequest houtcome hcode
      cases p with
      | messageDelivered echoed => exact follows_pure (.acknowledged hid hrequest ⟨echoed, houtcome⟩)
      | _ => simp [ResponsePayload.code, ResponseCode.substitute?] at hcode

/-- Trying and giving verdicts leaves the session. -/
theorem TryCourse.left_eq {deeds : List Deed} {y : Except Stop Receipt}
    (h : TryCourse s file content deeds y) (t : Session) : Deed.left t deeds = t := by
  cases h <;> rfl

theorem VerdictCourse.left_eq {verdict : Verdict} {deeds : List Deed} {y : Except Stop Unit}
    (h : VerdictCourse s verdict file deeds y) (t : Session) : Deed.left t deeds = t := by
  cases h <;> rfl

/-- What is put together from uploads, verdicts and notes of wrong uploads has what these have. -/
theorem UploadCourse.all {M : List Deed → Prop} (happend : ∀ {ds es}, M ds → M es → M (ds ++ es))
    (htry : ∀ {ds y}, TryCourse s file content ds y → M ds)
    (hverdict : ∀ {verdict ds y}, VerdictCourse s verdict file ds y → verdict ≠ .invalid → M ds)
    (hnote : ∀ attempt remaining e, M [.counted (0 : Metrics).crcMismatch,
      .told (.checksumMismatch attempt remaining e)])
    {remaining made : Nat} {deeds : List Deed} {y : Except Stop Delivery}
    (h : UploadCourse s file content remaining made deeds y) : M deeds := by
  induction h with
  | abandoned hgiveUp | unheard hgiveUp => exact hverdict hgiveUp (by nofun)
  | confirmed honce hconfirm | unconfirmed honce hconfirm =>
    exact happend (htry honce) (hverdict hconfirm (by nofun))
  | hung honce | brokenOff honce => exact htry honce
  | again honce _ _ ih => exact happend (htry honce) (happend (hnote _ _ _) ih)

theorem UploadCourse.left_eq {remaining made : Nat} {deeds : List Deed} {y : Except Stop Delivery}
    (h : UploadCourse s file content remaining made deeds y) (t : Session) :
    Deed.left t deeds = t := by
  refine h.all (M := fun ds => Deed.left t ds = t) ?_ (·.left_eq t) (fun h _ => h.left_eq t) ?_
  · intro ds es hds hes
    rw [Deed.left_append, hds, hes]
  · intro _ _ _
    rfl

theorem upload_follows (s : Session) (file : Name) (content : Bytes) (remaining made : Nat) :
    Follows env (upload env file content remaining made) s
      (UploadCourse s file content remaining made) := by
  induction remaining generalizing made with
  | zero =>
    apply (sendVerdict_follows (by nofun) s file).bind
    · intro stop deeds hverdict
      exact .unheard hverdict
    · intro _ deeds hverdict
      apply follows_fail
      rw [List.append_nil]
      exact .abandoned hverdict
  | succ remaining ih =>
    apply (uploadOnce_follows s file content).attempt_bind
    · intro deeds htry
      exact .hung htry
    · intro r ds htry
      rw [htry.left_eq]
      cases r with
      | ok receipt =>
        apply (sendVerdict_follows (by nofun) s file).bind
        · intro stop es hverdict
          exact .unconfirmed htry hverdict
        · intro _ es hverdict
          apply follows_pure
          rw [List.append_nil]
          exact .confirmed htry hverdict
      | error e =>
        simp only
        split
        · rename_i hretry
          refine follows_count_bind (fun m => m.crcMismatch_eq) ?_
          apply follows_report_bind (by nofun)
          apply (ih (made + 1)).mono
          intro es y hrest
          exact .again htry hretry hrest
        · rename_i hlast
          apply follows_fail
          rw [List.append_nil]
          exact .brokenOff htry (Bool.eq_false_iff.mpr hlast)

theorem WorkCourse.left_eq {retries : UInt32} {path : Bytes} {deeds : List Deed}
    {y : Except Stop Delivery} (h : WorkCourse retries s path file deeds y) (t : Session) :
    Deed.left t deeds = t := by
  cases h with
  | unread => rfl
  | read hupload => exact hupload.left_eq t

theorem loadAndUpload_follows (s : Session) (path : Bytes) (file : Name) :
    Follows env (loadAndUpload env path file) s (WorkCourse env.maxRetries s path file) := by
  refine follows_consult_bind (fun _ => rfl) (fun _ => rfl) ?_ ?_
  · intro e
    exact .unread
  · intro content
    apply (upload_follows s file content _ _).mono
    intro deeds y hupload
    exact .read hupload

theorem endTransfer_follows {r : Except TransferError Delivery}
    {E : List Deed → Except Stop Delivery → Prop} {g : Action (Client ω) Delivery}
    (h : Follows env g (s.closed r) fun deeds y => E (Deed.closing s file r ++ deeds) y) :
    Follows env (endTransfer file r >>= fun _ => g) s E := by
  unfold endTransfer
  split
  · simp only [bind_assoc]
    apply follows_changeSession_bind
    refine follows_count_bind (fun m => m.transferCompleted_eq) ?_
    exact follows_report_bind (by nofun) h
  · simp only [bind_assoc]
    apply follows_changeSession_bind
    refine follows_count_bind (fun m => m.transferAbandoned_eq) ?_
    exact follows_report_bind (by nofun) h
  · rename_i e hne
    unfold Deed.closing at h
    rw [Event.closing_of_ne hne, Metrics.closing_of_ne hne, Session.closed_of_ne hne] at h
    simp only [bind_assoc]
    apply follows_changeSession_bind
    apply follows_of_idle
    exact follows_report_bind (by nofun) h

theorem transfer_follows (s : Session) (path : Bytes) :
    Follows env (transfer env path) s (TransferCourse env.maxRetries s path) := by
  apply follows_changeSession_bind
  apply follows_ofExcept_bind
  · intro e hname
    exact .unnamed hname
  intro file hname
  apply follows_require_bind
  · intro e hbegin
    exact .unready hname hbegin
  intro t hbegin
  apply follows_changeSession_bind
  apply (loadAndUpload_follows t path file).attempt_bind
  · intro deeds hwork
    exact .hung hname hbegin hwork
  · intro r deeds hwork
    rw [hwork.left_eq]
    apply endTransfer_follows
    apply follows_snapshot_bind
    intro m
    exact follows_ofExcept (.closed hname hbegin hwork)

/-- A transfer that comes back was refused before anything was done for it, or its work is done, and
it is closed by what came of that. The counters are told last. -/
theorem TransferCourse.refused_or_closed {retries : UInt32} {path : Bytes} {deeds : List Deed}
    {r : Except TransferError Delivery}
    (h : TransferCourse retries s path deeds (r.mapError .failed)) :
    (deeds = [.changed (s.withPendingFile path)] ∧ ∃ e, r = .error e ∧ e.IsPlain ∧
      (Path.wireName path = .error e ∨ ∃ file, Path.wireName path = .ok file ∧
        (s.withPendingFile path).beginTransfer = .error e)) ∨
    ∃ file t work m, Path.wireName path = .ok file ∧
      (s.withPendingFile path).beginTransfer = .ok t ∧
      WorkCourse retries t path file work (r.mapError .failed) ∧
      deeds = .changed (s.withPendingFile path) :: .changed t ::
        (work ++ (Deed.closing t file r ++ [.told (.metricsSnapshot m)])) := by
  generalize hy : (r.mapError .failed : Except Stop _) = y at h
  cases h with
  | @unnamed e hname =>
    cases r <;> cases hy
    exact .inl ⟨rfl, e, rfl, Path.wireName_failsPlainly path e hname, .inl hname⟩
  | @unready file e hname hbegin =>
    cases r <;> cases hy
    exact .inl ⟨rfl, e, rfl, Session.beginTransfer_failsPlainly _ e hbegin,
      .inr ⟨file, hname, hbegin⟩⟩
  | hung => cases r <;> cases hy
  | @closed file t work r' m hname hbegin hwork =>
    obtain rfl := mapError_failed_inj hy
    exact .inr ⟨file, t, work, m, hname, hbegin, hwork, rfl⟩

end Client

end Courier
