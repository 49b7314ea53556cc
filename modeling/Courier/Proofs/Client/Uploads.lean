import Courier.Proofs.Client.TransferCourses
import Mathlib.Data.List.Forall2

namespace Courier

/-- What is told of uploads that the server got wrong, of `limit` at most and after `made` others. -/
def Event.mismatches (checksum : UInt32) (limit made : Nat) (wrong : List UInt32) : List Event :=
  wrong.mapIdx fun i reported =>
    .checksumMismatch (made + i + 1) (limit - (made + i + 1)) (.integrityMismatch checksum reported)

theorem Event.mismatches_cons (checksum : UInt32) (limit made : Nat) (reported : UInt32)
    (wrong : List UInt32) :
    mismatches checksum limit made (reported :: wrong) =
      .checksumMismatch (made + 1) (limit - (made + 1)) (.integrityMismatch checksum reported) ::
        mismatches checksum limit (made + 1) wrong := by
  unfold mismatches
  rw [List.mapIdx_cons]
  congr 2
  funext i s
  rw [← Nat.add_assoc made i 1, Nat.add_right_comm made i 1]

/-- An upload and its notice, one after the other, for each pair. -/
def Client.inOrder (pairs : List (RoundTrip × RoundTrip)) : List RoundTrip :=
  pairs.flatMap fun p => [p.1, p.2]

namespace Job

variable {ω : Type} (env : Environment ω) (job : Job)

/-- The round trip brings the content, encrypted under the session key. -/
def IsUpload (trip : RoundTrip) : Prop :=
  ∃ w sealed, (env.encrypt job.key job.content w).1 = .ok sealed ∧
    trip.request = .sendFile job.id job.file sealed

/-- The round trip brings a verdict on the upload before it. -/
def IsVerdict (verdict : Verdict) (trip : RoundTrip) : Prop :=
  trip.request = .verdict verdict job.id job.file

/-- The server acknowledged the upload, but not with the checksum of the content. -/
def IsMisreported (trip : RoundTrip) (checksum : UInt32) : Prop :=
  (∃ file size, trip.Reports file size checksum) ∧ checksum ≠ Checksum.crc32 job.content

/-- No request is made, for the content cannot be encrypted, or not be described once it is. -/
def IsPrevented (e : TransferError) : Prop :=
  (∃ w, (env.encrypt job.key job.content w).1 = .error e) ∨
    ∃ w sealed, (env.encrypt job.key job.content w).1 = .ok sealed ∧
      Request.upload job.id job.file sealed = .error e

/-- How an upload breaks off. -/
inductive BreaksOff : List RoundTrip → TransferError → Prop where
  | prevented {e : TransferError} : job.IsPrevented env e → BreaksOff [] e
  | lost {upload : RoundTrip} {e : TransferError} :
    job.IsUpload env upload → upload.outcome = .error (.failed e) → BreaksOff [upload] e
  | unnoticed {upload notice : RoundTrip} {checksum : UInt32} {e : TransferError} :
    job.IsUpload env upload → job.IsMisreported upload checksum →
      job.IsVerdict .invalid notice → notice.outcome = .error (.failed e) →
        BreaksOff [upload, notice] e

/-- An upload that the server got wrong, and the notice of that, which went through. -/
structure IsRejected (upload notice : RoundTrip) (checksum : UInt32) : Prop where
  isUpload : job.IsUpload env upload
  isMisreported : job.IsMisreported upload checksum
  isVerdict : job.IsVerdict .invalid notice
  passed : notice.outcome = .ok none

/-- What one upload comes to; what breaks it off is one of `P`. -/
inductive ComesTo (P : TransferError → Prop) :
    List RoundTrip → Except TransferError Receipt → Prop where
  | brokenOff {ts : List RoundTrip} {e : TransferError} :
    job.BreaksOff env ts e → P e → ComesTo P ts (.error e)
  | rejected {upload notice : RoundTrip} {checksum : UInt32} :
    job.IsRejected env upload notice checksum →
      ComesTo P [upload, notice]
        (.error (.integrityMismatch (Checksum.crc32 job.content) checksum))
  | accepted {upload : RoundTrip} {file : Name} {size : UInt32} :
    job.IsUpload env upload → upload.Reports file size (Checksum.crc32 job.content) →
      ComesTo P [upload] (.ok ⟨file, size, Checksum.crc32 job.content⟩)

/-- How a transfer ends that may upload `limit` times, after `made` uploads that were rejected: an
upload is confirmed, the file is given up when no upload is left, or something breaks off, for a cause
that is one of `P`. -/
inductive EndsWithin (P : TransferError → Prop) (limit made : Nat) :
    List RoundTrip → Except TransferError Delivery → Prop where
  | confirmed {upload verdict : RoundTrip} {file : Name} {size : UInt32} :
    made < limit → job.IsUpload env upload →
      upload.Reports file size (Checksum.crc32 job.content) →
      job.IsVerdict .valid verdict → verdict.IsAcknowledged →
        EndsWithin P limit made [upload, verdict]
          (.ok ⟨file, made + 1, Checksum.crc32 job.content, size⟩)
  | abandoned {verdict : RoundTrip} {attempts : UInt32} :
    made = limit → job.IsVerdict .finalInvalid verdict → verdict.IsAcknowledged →
      attempts.toNat = limit →
        EndsWithin P limit made [verdict] (.error (.transferAbandoned attempts))
  | brokenOff {ts : List RoundTrip} {e : TransferError} :
    made < limit → job.BreaksOff env ts e → P e → EndsWithin P limit made ts (.error e)
  | unconfirmed {upload verdict : RoundTrip} {file : Name} {size : UInt32} {e : TransferError} :
    made < limit → job.IsUpload env upload →
      upload.Reports file size (Checksum.crc32 job.content) →
      job.IsVerdict .valid verdict → verdict.outcome = .error (.failed e) → P e →
        EndsWithin P limit made [upload, verdict] (.error e)
  | unheard {verdict : RoundTrip} {e : TransferError} :
    made = limit → job.IsVerdict .finalInvalid verdict → verdict.outcome = .error (.failed e) →
      P e → EndsWithin P limit made [verdict] (.error e)

/-- How a transfer ends if what breaks off does so for a plain cause. -/
def Ends (limit made : Nat) : List RoundTrip → Except TransferError Delivery → Prop :=
  job.EndsWithin env TransferError.IsPlain limit made

/-- How the uploads of a job go after `made` of at most `limit`. Those that the server got wrong are
told, each with the checksum that it reported, and counted; then there is one ending. -/
structure Goes (P : TransferError → Prop) (limit made : Nat) (deeds : List Deed)
    (rejected : List (RoundTrip × RoundTrip)) (wrong : List UInt32) (ending : List RoundTrip)
    (r : Except TransferError Delivery) : Prop where
  trips_eq : Client.trips (Deed.acts deeds) = Client.inOrder rejected ++ ending
  allRejected : List.Forall₂ (fun p checksum => job.IsRejected env p.1 p.2 checksum) rejected wrong
  length_le : made + rejected.length ≤ limit
  ends : job.EndsWithin env P limit (made + rejected.length) ending r
  events_eq : Deed.events deeds = Event.mismatches (Checksum.crc32 job.content) limit made wrong
  count_eq : (Deed.gains deeds).crcMismatches = .ofNat wrong.length

variable {env job}

/-- A session that has begun a transfer has what any job needs. -/
theorem exists_fitsSession {s t : Session} (h : s.beginTransfer = .ok t) (file : Name)
    (content : Bytes) : ∃ id key, FitsSession ⟨id, key, file, content⟩ t := by
  obtain ⟨id, hid, hkeyed⟩ := bind_eq_ok.mp h
  obtain ⟨key, hkey, hbegun⟩ := bind_eq_ok.mp hkeyed
  cases hbegun
  exact ⟨id, key, hid, hkey⟩

/-- The session decides the identity and the key. -/
theorem FitsSession.unique {s : Session} (h : job.FitsSession s) {id : ClientId} {key : SymmetricKey}
    {file : Name} {content : Bytes} (h' : FitsSession ⟨id, key, file, content⟩ s) :
    id = job.id ∧ key = job.key :=
  ⟨Except.ok.inj (h'.1.symm.trans h.1), Except.ok.inj (h'.2.symm.trans h.2)⟩

/-- An upload is broken off by the surroundings, or by a plain cause. -/
theorem BreaksOff.cause {P : TransferError → Prop} (hf : env.FailsWithin P)
    (hplain : ∀ e, e.IsPlain → P e) {ts : List RoundTrip} {e : TransferError}
    (h : job.BreaksOff env ts e) (hheld : ∀ t ∈ ts, t.Held env) : P e := by
  cases h with
  | prevented hprevented =>
    rcases hprevented with ⟨w, hseal⟩ | ⟨w, sealed, -, hrequest⟩
    · exact hf.encrypt _ _ w e hseal
    · exact hplain e ((Request.header_failsPlainly _).map _ e hrequest)
  | @lost upload _ _ houtcome => exact (hheld upload (by simp)).cause hf hplain houtcome
  | @unnoticed upload notice _ _ _ _ _ houtcome =>
    exact (hheld notice (by simp)).cause hf hplain houtcome

theorem EndsWithin.made_le {P : TransferError → Prop} {limit made : Nat} {ts : List RoundTrip}
    {r : Except TransferError Delivery} (h : job.EndsWithin env P limit made ts r) :
    made ≤ limit := by
  cases h with
  | confirmed hlt | brokenOff hlt | unconfirmed hlt => exact Nat.le_of_lt hlt
  | abandoned heq | unheard heq => exact Nat.le_of_eq heq

theorem ComesTo.of_ok {P : TransferError → Prop} {ts : List RoundTrip} {receipt : Receipt}
    (h : job.ComesTo env P ts (.ok receipt)) :
    ∃ upload file size, ts = [upload] ∧ job.IsUpload env upload ∧
      upload.Reports file size (Checksum.crc32 job.content) ∧
      receipt = ⟨file, size, Checksum.crc32 job.content⟩ := by
  cases h with
  | accepted hupload hreports => exact ⟨_, _, _, rfl, hupload, hreports, rfl⟩

theorem ComesTo.of_error {P : TransferError → Prop} {ts : List RoundTrip} {e : TransferError}
    (h : job.ComesTo env P ts (.error e)) :
    job.BreaksOff env ts e ∧ P e ∨ ∃ upload notice checksum, ts = [upload, notice] ∧
      job.IsRejected env upload notice checksum ∧
      e = .integrityMismatch (Checksum.crc32 job.content) checksum := by
  cases h with
  | brokenOff hbreaks hcause => exact .inl ⟨hbreaks, hcause⟩
  | rejected hrejected => exact .inr ⟨_, _, _, rfl, hrejected, rfl⟩

/-- Where nothing is told and no wrong upload is counted, there is an ending only. -/
theorem goes_of_ends {P : TransferError → Prop} {limit made : Nat} {deeds : List Deed}
    {r : Except TransferError Delivery}
    (h : job.EndsWithin env P limit made (Client.trips (Deed.acts deeds)) r)
    (hevents : Deed.events deeds = []) (hcount : (Deed.gains deeds).crcMismatches = 0) :
    job.Goes env P limit made deeds [] [] (Client.trips (Deed.acts deeds)) r :=
  ⟨rfl, .nil, h.made_le, h, hevents, hcount⟩

theorem Goes.isRejected {P : TransferError → Prop} {limit made : Nat} {deeds : List Deed}
    {rejected : List (RoundTrip × RoundTrip)} {wrong : List UInt32} {ending : List RoundTrip}
    {r : Except TransferError Delivery}
    (h : job.Goes env P limit made deeds rejected wrong ending r) {p : RoundTrip × RoundTrip}
    (hp : p ∈ rejected) : ∃ checksum, job.IsRejected env p.1 p.2 checksum := by
  obtain ⟨i, hi, rfl⟩ := List.mem_iff_getElem.mp hp
  have hi' : i < wrong.length := by
    rw [← h.allRejected.length_eq]
    exact hi
  exact ⟨wrong[i], h.allRejected.get hi hi'⟩

/-- A rejected upload leaves one attempt less and counts as made, so that the limit never changes. -/
theorem Goes.rejected_cons {P : TransferError → Prop} {remaining made : Nat} {ds es : List Deed}
    {upload notice : RoundTrip} {checksum : UInt32} {rejected : List (RoundTrip × RoundTrip)}
    {wrong : List UInt32} {ending : List RoundTrip} {r : Except TransferError Delivery}
    (h : job.IsRejected env upload notice checksum)
    (htrips : Client.trips (Deed.acts ds) = [upload, notice]) (hevents : Deed.events ds = [])
    (hcount : (Deed.gains ds).crcMismatches = 0)
    (hes : job.Goes env P (remaining + (made + 1)) (made + 1) es rejected wrong ending r) :
    job.Goes env P (remaining + 1 + made) made
      (ds ++ .counted (0 : Metrics).crcMismatch :: .told (.checksumMismatch (made + 1) remaining
        (.integrityMismatch (Checksum.crc32 job.content) checksum)) :: es)
      ((upload, notice) :: rejected) (checksum :: wrong) ending r := by
  have hlimit : remaining + (made + 1) = remaining + 1 + made := by omega
  have hlength : made + 1 + rejected.length = made + ((upload, notice) :: rejected).length := by
    rw [List.length_cons]
    omega
  have hleft : remaining = remaining + 1 + made - (made + 1) := by omega
  rw [hlimit] at hes
  refine ⟨?_, .cons h hes.allRejected, ?_, ?_, ?_, ?_⟩
  · simp [htrips, hes.trips_eq, Client.inOrder]
  · rw [← hlength]
    exact hes.length_le
  · rw [← hlength]
    exact hes.ends
  · rw [Event.mismatches_cons, ← hleft, Deed.events_append, hevents, Deed.events_counted,
      Deed.events_told, hes.events_eq]
    rfl
  · have hsum : (Deed.gains ds + ((0 : Metrics).crcMismatch + Deed.gains es)).crcMismatches =
        (Deed.gains ds).crcMismatches + (1 + (Deed.gains es).crcMismatches) := rfl
    rw [Deed.gains_append, Deed.gains_counted, Deed.gains_told, hsum, hcount, hes.count_eq,
      List.length_cons, UInt64.ofNat_add, UInt64.zero_add, UInt64.add_comm]
    rfl

end Job

namespace Client

variable {ω : Type} {env : Environment ω} {job : Job} {s : Session} {c d : Client ω}
  {deeds ds es : List Deed}

/-- An upload by itself tells nothing, and counts no wrong upload. -/
theorem TryCourse.events_eq {file : Name} {content : Bytes} {y : Except Stop Receipt}
    (h : TryCourse s file content deeds y) : Deed.events deeds = [] := by
  cases h <;> rfl

theorem TryCourse.crcMismatches_eq {file : Name} {content : Bytes} {y : Except Stop Receipt}
    (h : TryCourse s file content deeds y) : (Deed.gains deeds).crcMismatches = 0 := by
  cases h <;> rfl

theorem VerdictCourse.events_eq {verdict : Verdict} {file : Name} {y : Except Stop Unit}
    (h : VerdictCourse s verdict file deeds y) : Deed.events deeds = [] := by
  cases h <;> rfl

theorem VerdictCourse.gains_eq {verdict : Verdict} {file : Name} {y : Except Stop Unit}
    (h : VerdictCourse s verdict file deeds y) : Deed.gains deeds = 0 := by
  cases h <;> rfl

theorem quiet_of_verdict {verdict : Verdict} {file : Name} {content : Bytes}
    {y : Except Stop Receipt} {z : Except Stop Unit} (h : TryCourse s file content ds y)
    (h' : VerdictCourse s verdict file es z) :
    Deed.events (ds ++ es) = [] ∧ (Deed.gains (ds ++ es)).crcMismatches = 0 := by
  rw [Deed.events_append, h.events_eq, h'.events_eq, Deed.gains_append, h'.gains_eq,
    Metrics.add_zero]
  exact ⟨rfl, h.crcMismatches_eq⟩

/-- A content that was encrypted is sent. -/
theorem Does.isUpload {sealed : Bytes} {trip : RoundTrip} (h : Does env c deeds d)
    (hseal : .encrypted job.key job.content (.ok sealed) ∈ Deed.acts deeds)
    (hrequest : trip.request = .sendFile job.id job.file sealed) : job.IsUpload env trip := by
  obtain ⟨w, w', hoccurs⟩ := h.occurs hseal
  exact ⟨w, sealed, congrArg Prod.fst hoccurs, hrequest⟩

section Uploading

variable {P : TransferError → Prop}

theorem TryCourse.comesTo (hf : env.FailsWithin P) (hplain : ∀ e, e.IsPlain → P e)
    (hs : job.FitsSession s) {r : Except TransferError Receipt}
    (h : TryCourse s job.file job.content deeds (r.mapError .failed)) (hd : Does env c deeds d) :
    job.ComesTo env P (trips (Deed.acts deeds)) r := by
  have hbroken {e : TransferError} (hbreaks : job.BreaksOff env (trips (Deed.acts deeds)) e) :
      job.ComesTo env P (trips (Deed.acts deeds)) (.error e) :=
    .brokenOff hbreaks (hbreaks.cause hf hplain hd.held)
  generalize hy : (r.mapError .failed : Except Stop _) = y at h
  cases h with
  | unready hnone =>
    rcases hnone with hnone | hnone
    · cases hs.1.symm.trans hnone
    · cases hs.2.symm.trans hnone
  | @unsealed id key e hfits =>
    obtain ⟨rfl, rfl⟩ := hs.unique hfits
    obtain ⟨w, w', hoccurs⟩ := hd.occurs (.head _)
    cases r <;> cases hy
    exact hbroken (.prevented (.inl ⟨w, congrArg Prod.fst hoccurs⟩))
  | @unsendable id key sealed e hfits hrequest =>
    obtain ⟨rfl, rfl⟩ := hs.unique hfits
    obtain ⟨w, w', hoccurs⟩ := hd.occurs (.head _)
    cases r <;> cases hy
    exact hbroken (.prevented (.inr ⟨w, sealed, congrArg Prod.fst hoccurs, hrequest⟩))
  | @lost id key sealed upload stop hfits hrequest houtcome =>
    obtain ⟨rfl, rfl⟩ := hs.unique hfits
    have hupload := hd.isUpload (.head _) hrequest
    cases r <;> cases hy
    exact hbroken (.lost hupload houtcome)
  | @accepted id key sealed upload file size hfits hrequest hreports =>
    obtain ⟨rfl, rfl⟩ := hs.unique hfits
    have hupload := hd.isUpload (.head _) hrequest
    cases r <;> cases hy
    exact .accepted hupload hreports
  | @rejected id key sealed upload notice file size checksum hfits hrequest hreports hne hverdict
      hpassed =>
    obtain ⟨rfl, rfl⟩ := hs.unique hfits
    have hupload := hd.isUpload (.head _) hrequest
    cases r <;> cases hy
    exact .rejected ⟨hupload, ⟨⟨file, size, hreports⟩, hne⟩, hverdict, hpassed⟩
  | @unnoticed id key sealed upload notice file size checksum stop hfits hrequest hreports hne
      hverdict hlost =>
    obtain ⟨rfl, rfl⟩ := hs.unique hfits
    have hupload := hd.isUpload (.head _) hrequest
    cases r <;> cases hy
    exact hbroken (.unnoticed hupload ⟨⟨file, size, hreports⟩, hne⟩ hverdict hlost)

/-- A client that is ready gives its verdict in one round trip. -/
theorem VerdictCourse.trip {verdict : Verdict} {y : Except Stop Unit} (hs : job.FitsSession s)
    (h : VerdictCourse s verdict job.file deeds y) :
    ∃ trip, trips (Deed.acts deeds) = [trip] ∧ job.IsVerdict verdict trip ∧
      (y = .ok () → trip.IsAcknowledged) ∧ ∀ stop, y = .error stop → trip.outcome = .error stop := by
  cases h with
  | unready hnone => cases hs.1.symm.trans hnone
  | @lost id trip stop hid hrequest houtcome =>
    obtain rfl := Except.ok.inj (hid.symm.trans hs.1)
    refine ⟨trip, rfl, hrequest, by nofun, ?_⟩
    rintro _ ⟨⟩
    exact houtcome
  | @acknowledged id trip hid hrequest hacknowledged =>
    obtain rfl := Except.ok.inj (hid.symm.trans hs.1)
    exact ⟨trip, rfl, hrequest, fun _ => hacknowledged, by nofun⟩

/-- How it goes on from any point, by induction on the uploads that are made. -/
theorem UploadCourse.goes (hf : env.FailsWithin P) (hplain : ∀ e, e.IsPlain → P e)
    (hlast : ∀ e, P e → e.isRetryable = false) (hs : job.FitsSession s) {remaining made : Nat}
    (hlt : remaining + made < UInt32.size) {r : Except TransferError Delivery}
    (h : UploadCourse s job.file job.content remaining made deeds (r.mapError .failed))
    (hd : Does env c deeds d) :
    ∃ rejected wrong ending,
      job.Goes env P (remaining + made) made deeds rejected wrong ending r := by
  generalize hy : (r.mapError .failed : Except Stop _) = y at h
  induction h generalizing c d with
  | @abandoned made deeds hgiveUp =>
    cases r <;> cases hy
    obtain ⟨trip, htrips, hverdict, hacknowledged, -⟩ := hgiveUp.trip hs
    have hattempts : (UInt32.ofNat made).toNat = 0 + made := by
      rw [Nat.zero_add] at hlt ⊢
      exact UInt32.toNat_ofNat_of_lt hlt
    refine ⟨_, _, _, Job.goes_of_ends ?_ hgiveUp.events_eq (congrArg _ hgiveUp.gains_eq)⟩
    rw [htrips]
    exact .abandoned (Nat.zero_add made).symm hverdict (hacknowledged rfl) hattempts
  | @unheard made deeds stop hgiveUp =>
    cases r <;> cases hy
    obtain ⟨trip, htrips, hverdict, -, hlost⟩ := hgiveUp.trip hs
    have houtcome := hlost _ rfl
    have hheld := hd.held trip (by simp [htrips])
    refine ⟨_, _, _, Job.goes_of_ends ?_ hgiveUp.events_eq (congrArg _ hgiveUp.gains_eq)⟩
    rw [htrips]
    exact .unheard (Nat.zero_add made).symm hverdict houtcome (hheld.cause hf hplain houtcome)
  | @confirmed remaining made ds es receipt honce hconfirm =>
    cases r <;> cases hy
    have hmade : made < remaining + 1 + made := by omega
    obtain ⟨m, hds, -⟩ := hd.of_append
    obtain ⟨upload, file, size, hts, hupload, hreports, rfl⟩ :=
      (honce.comesTo (r := .ok receipt) hf hplain hs hds).of_ok
    obtain ⟨trip, htrips, hverdict, hacknowledged, -⟩ := hconfirm.trip hs
    obtain ⟨hevents, hcount⟩ := quiet_of_verdict honce hconfirm
    refine ⟨_, _, _, Job.goes_of_ends ?_ hevents hcount⟩
    rw [Deed.acts_append, trips_append, hts, htrips]
    exact .confirmed hmade hupload hreports hverdict (hacknowledged rfl)
  | @unconfirmed remaining made ds es receipt stop honce hconfirm =>
    cases r <;> cases hy
    have hmade : made < remaining + 1 + made := by omega
    obtain ⟨m, hds, hes⟩ := hd.of_append
    obtain ⟨upload, file, size, hts, hupload, hreports, rfl⟩ :=
      (honce.comesTo (r := .ok receipt) hf hplain hs hds).of_ok
    obtain ⟨trip, htrips, hverdict, -, hlost⟩ := hconfirm.trip hs
    have houtcome := hlost _ rfl
    have hheld := hes.held trip (by simp [htrips])
    obtain ⟨hevents, hcount⟩ := quiet_of_verdict honce hconfirm
    refine ⟨_, _, _, Job.goes_of_ends ?_ hevents hcount⟩
    rw [Deed.acts_append, trips_append, hts, htrips]
    exact .unconfirmed hmade hupload hreports hverdict houtcome (hheld.cause hf hplain houtcome)
  | hung => cases r <;> cases hy
  | @brokenOff remaining made deeds e honce he =>
    cases r <;> cases hy
    have hmade : made < remaining + 1 + made := by omega
    rcases (honce.comesTo (r := .error e) hf hplain hs hd).of_error with
      ⟨hbreaks, hcause⟩ | ⟨upload, notice, checksum, -, -, rfl⟩
    · exact ⟨_, _, _, Job.goes_of_ends (.brokenOff hmade hbreaks hcause) honce.events_eq
        honce.crcMismatches_eq⟩
    · cases he
  | @again remaining made ds es e y honce he _ ih =>
    obtain ⟨m, hds, hrest⟩ := hd.of_append
    rcases (honce.comesTo (r := .error e) hf hplain hs hds).of_error with
      ⟨-, hcause⟩ | ⟨upload, notice, checksum, htrips, hrejected, rfl⟩
    · rw [hlast e hcause] at he
      cases he
    · obtain _ | ⟨-, _ | ⟨-, hes⟩⟩ := hrest
      obtain ⟨rejected, wrong, ending, hgoes⟩ := ih (by omega) hes hy
      exact ⟨_, _, _, hgoes.rejected_cons hrejected htrips honce.events_eq honce.crcMismatches_eq⟩

/-- Counters that are told last are told as they are left. -/
theorem Does.metrics_of_snapshot {m : Metrics}
    (h : Does env c (deeds ++ [.told (.metricsSnapshot m)]) d) : m = d.metrics := by
  obtain ⟨k, -, _ | ⟨hlast, _ | _⟩⟩ := h.of_append
  obtain _ | _ | htold := hlast
  exact htold m rfl

/-- A transfer that has begun does all of its work, and then it is closed by what came of that. The
counters are told last. -/
theorem transfer_deeds {path : Bytes} {file : Name} {t : Session}
    (hname : Path.wireName path = .ok file)
    (hbegin : (c.session.withPendingFile path).beginTransfer = .ok t)
    {r : Except TransferError Delivery} (h : (transfer env path).Returns c r d) :
    ∃ work m k, WorkCourse env.maxRetries t path file work (r.mapError .failed) ∧
      m.world = c.world ∧ Does env m work k ∧
      Does env c (.changed (c.session.withPendingFile path) :: .changed t ::
        (work ++ (Deed.closing t file r ++ [.told (.metricsSnapshot d.metrics)]))) d := by
  obtain ⟨deeds, hcourse, hd⟩ := (transfer_follows _ path).of_returns h
  rcases hcourse.refused_or_closed with ⟨-, e, -, -, hunnamed | ⟨file', hname', hunready⟩⟩ |
    ⟨file', t', work, n, hname', hbegin', hwork, rfl⟩
  · cases hname.symm.trans hunnamed
  · cases hbegin.symm.trans hunready
  · cases hname.symm.trans hname'
    cases hbegin.symm.trans hbegin'
    have hparts : Does env c ([.changed (c.session.withPendingFile path), .changed t] ++
        (work ++ (Deed.closing t file r ++ [.told (.metricsSnapshot n)]))) d := hd
    obtain ⟨m, hbegun, hrest⟩ := hparts.of_append
    obtain ⟨k, hdoes, hend⟩ := hrest.of_append
    obtain rfl := hend.metrics_of_snapshot
    exact ⟨work, m, k, hwork, History.nil_iff.mp hbegun.notes.history, hdoes, hd⟩

/-- The work of a transfer is over where the file is not read, and else it is its uploads. -/
theorem WorkCourse.read_or_not {retries : UInt32} {path : Bytes} {file : Name}
    {r : Except TransferError Delivery}
    (h : WorkCourse retries s path file deeds (r.mapError .failed)) (hd : Does env c deeds d) :
    (∃ e, (env.loadFile path c.world).1 = .error e ∧ r = .error e ∧
      deeds = [.noted (.loadedFile path (.error e))]) ∨
    ∃ content uploads m, (env.loadFile path c.world).1 = .ok content ∧
      deeds = .noted (.loadedFile path (.ok content)) :: uploads ∧ Does env m uploads d ∧
      UploadCourse s file content (Attempts.ofRetries retries).remaining
        (Attempts.ofRetries retries).used uploads (r.mapError .failed) := by
  generalize hy : (r.mapError .failed : Except Stop _) = y at h
  cases h with
  | @unread e =>
    cases r <;> cases hy
    obtain ⟨m, hload, -⟩ := History.cons_iff.mp hd.notes.history
    exact .inl ⟨e, congrArg Prod.fst hload, rfl, rfl⟩
  | @read content uploads y hupload =>
    subst hy
    obtain ⟨m, hload, -⟩ := History.cons_iff.mp hd.notes.history
    obtain _ | ⟨-, huploads⟩ := hd
    exact .inr ⟨content, uploads, _, congrArg Prod.fst hload, rfl, huploads, hupload⟩

theorem WorkCourse.goes (hf : env.FailsWithin P) (hplain : ∀ e, e.IsPlain → P e)
    (hlast : ∀ e, P e → e.isRetryable = false) (hs : job.FitsSession s) {path : Bytes}
    (hcontent : (env.loadFile path c.world).1 = .ok job.content) {r : Except TransferError Delivery}
    (h : WorkCourse env.maxRetries s path job.file deeds (r.mapError .failed))
    (hd : Does env c deeds d) :
    ∃ rejected wrong ending, job.Goes env P (min (env.maxRetries.toNat + 1) (2 ^ 32 - 1)) 0 deeds
      rejected wrong ending r := by
  have hlimit : (Attempts.ofRetries env.maxRetries).remaining + 0 =
      min (env.maxRetries.toNat + 1) (2 ^ 32 - 1) := rfl
  have hlt : (Attempts.ofRetries env.maxRetries).remaining + 0 < UInt32.size := by
    rw [hlimit, UInt32.size]
    omega
  rcases h.read_or_not hd with ⟨e, hunread, -⟩ | ⟨content, uploads, m, hread, rfl, hdoes, hupload⟩
  · cases hcontent.symm.trans hunread
  · cases hcontent.symm.trans hread
    obtain ⟨rejected, wrong, ending, hgoes⟩ := hupload.goes hf hplain hlast hs hlt hdoes
    rw [hlimit] at hgoes
    refine ⟨rejected, wrong, ending, hgoes.trips_eq, hgoes.allRejected, hgoes.length_le, hgoes.ends,
      hgoes.events_eq, ?_⟩
    rw [Deed.gains_noted]
    exact hgoes.count_eq

/-- A client that has the identity and the key for a job can begin it. -/
theorem beginTransfer_of_fits (hs : job.FitsSession s) :
    ∃ t, s.beginTransfer = .ok t ∧ job.FitsSession t := by
  refine ⟨{ s with state := .transferring }, ?_, hs⟩
  rw [Session.beginTransfer, hs.1, hs.2]
  rfl

/-- A transfer is uploads that are rejected, as many as are made in vain, and one ending. Every
request goes over a fresh connection of its own, and none is made besides these. -/
theorem transfer_trips (hn : env.IsNeutral) {path content : Bytes} {file : Name}
    {key : SymmetricKey} (hid : c.session.id.isAssigned) (hkey : c.session.symmetricKey = some key)
    (hname : Path.wireName path = .ok file) (hcontent : (env.loadFile path c.world).1 = .ok content)
    {r : Except TransferError Delivery} (h : (transfer env path).Returns c r d) :
    ∃ rejected ending,
      trips d.journal = trips c.journal ++ inOrder rejected ++ ending ∧
      rejected.length ≤ min (env.maxRetries.toNat + 1) (2 ^ 32 - 1) ∧
      (∀ trip ∈ inOrder rejected ++ ending, trip.Held env) ∧
      (∀ p ∈ rejected, ∃ checksum,
        Job.IsRejected env ⟨c.session.id, key, file, content⟩ p.1 p.2 checksum) ∧
      Job.Ends env ⟨c.session.id, key, file, content⟩
        (min (env.maxRetries.toNat + 1) (2 ^ 32 - 1)) rejected.length ending r := by
  let job : Job := ⟨c.session.id, key, file, content⟩
  have hs : job.FitsSession (c.session.withPendingFile path) := by
    simp only [Job.FitsSession, Session.requireId, Session.requireSymmetricKey,
      Session.withPendingFile, hid, hkey, if_true, job, and_self]
  obtain ⟨t, hbegin, hfits⟩ := beginTransfer_of_fits hs
  obtain ⟨work, m, k, hwork, hworld, hdoes, hwhole⟩ := transfer_deeds hname hbegin h
  rw [← hworld] at hcontent
  obtain ⟨rejected, wrong, ending, hgoes⟩ := WorkCourse.goes hn.failsWithin (fun _ he => he)
    (fun _ he => he.not_isRetryable) hfits hcontent hwork hdoes
  have hlength := hgoes.length_le
  have hends := hgoes.ends
  rw [Nat.zero_add] at hlength hends
  have hheld : ∀ trip ∈ inOrder rejected ++ ending, trip.Held env := by
    rw [← hgoes.trips_eq]
    exact hdoes.held
  have htrips : trips d.journal = trips c.journal ++ inOrder rejected ++ ending := by
    rw [List.append_assoc, ← hgoes.trips_eq]
    have hacts := hwhole.trips_eq
    simpa [Deed.closing, trips] using hacts
  exact ⟨rejected, ending, htrips, hlength, hheld, fun _ hp => hgoes.isRejected hp, hends⟩

end Uploading

/-- The bytes of an acknowledged upload without a name, with a checksum. -/
def reportOf (checksum : Bytes) : Bytes :=
  [3, 55, 8, 23, 1, 0, 0] ++ (List.replicate 275 0 ++ checksum)

/-- The bytes of an acknowledged verdict. -/
def acknowledgement : Bytes :=
  [3, 56, 8, 16, 0, 0, 0] ++ List.replicate 16 0

/-- A server gets the first upload of an empty file wrong and the second one right. -/
theorem transfer_trips_second_try :
    ∃ (c d : Client (List Stream)) (key : SymmetricKey)
        (rejected : List (RoundTrip × RoundTrip)) (ending : List RoundTrip),
      c.world = [heedful [.data (reportOf [1, 0, 0, 0])], heedful [],
        heedful [.data (reportOf [0, 0, 0, 0])], heedful [.data acknowledgement]] ∧
      c.session.symmetricKey = some key ∧
      (transfer inTurn [0x61]).Returns c (.ok ⟨.empty, 2, 0, 0⟩) d ∧
      trips d.journal = inOrder rejected ++ ending ∧ rejected.length ≤ 4 ∧
      (∀ p ∈ rejected, ∃ checksum,
        Job.IsRejected inTurn ⟨c.session.id, key, ⟨"a"⟩, []⟩ p.1 p.2 checksum) ∧
      Job.Ends inTurn ⟨c.session.id, key, ⟨"a"⟩, []⟩ 4 rejected.length ending
        (.ok ⟨.empty, 2, 0, 0⟩) := by
  let key : SymmetricKey := ⟨List.replicate 16 2, rfl⟩
  let session : Session :=
    { Session.new with id := ⟨List.replicate 16 1, rfl⟩, symmetricKey := some key }
  let c : Client (List Stream) :=
    { new [heedful [.data (reportOf [1, 0, 0, 0])], heedful [],
        heedful [.data (reportOf [0, 0, 0, 0])], heedful [.data acknowledgement]] with session }
  have hn : inTurn.IsNeutral := by
    refine ⟨fun w => ?_, fun _ content _ => failsPlainly_ok content⟩
    cases w with
    | nil => exact failsPlainly_error trivial
    | cons stream streams => exact failsPlainly_ok stream
  have hname : Path.wireName [0x61] = .ok ⟨"a"⟩ := by decide +kernel
  have hrun : (Action.ended (transfer inTurn [0x61] c)).any (fun p =>
      decide (p.1 = .ok ⟨.empty, 2, 0, 0⟩)) = true := by
    decide +kernel
  obtain ⟨⟨r, d⟩, hd, hr⟩ := (Option.any_eq_true _ _).mp hrun
  cases of_decide_eq_true hr
  obtain ⟨rejected, ending, htrips, hle, -, hall, hends⟩ :=
    transfer_trips hn (c := c) (by decide) rfl hname rfl hd
  exact ⟨c, d, key, rejected, ending, rfl, rfl, hd, htrips, hle, hall, hends⟩

end Client

end Courier
