import Courier.Proofs.Client.Uploads

namespace Courier

namespace RoundTrip

/-- The checksum that the server reports of an upload. -/
def reported? (trip : RoundTrip) : Option UInt32 :=
  match trip.outcome with
  | .ok (some (.fileDelivered _ _ _ checksum)) => some checksum
  | _ => none

/-- A notice of an upload that the server got wrong, which failed. -/
def isLostNotice (trip : RoundTrip) : Bool :=
  match trip.request, trip.outcome with
  | .verdict .invalid _ _, .error _ => true
  | _, _ => false

theorem Reports.reported?_eq {trip : RoundTrip} {file : Name} {size checksum : UInt32}
    (h : trip.Reports file size checksum) : trip.reported? = some checksum := by
  obtain ⟨echoed, houtcome⟩ := h
  rw [reported?, houtcome]

theorem IsAcknowledged.reported?_eq {trip : RoundTrip} (h : trip.IsAcknowledged) :
    trip.reported? = none := by
  obtain ⟨echoed, houtcome⟩ := h
  rw [reported?, houtcome]

theorem reported?_of_error {trip : RoundTrip} {stop : Stop} (h : trip.outcome = .error stop) :
    trip.reported? = none := by
  rw [reported?, h]

end RoundTrip

/-- The checksums that the server reports, in order. -/
def reported (ts : List RoundTrip) : List UInt32 :=
  ts.filterMap RoundTrip.reported?

/-- The round trips `ts` about a content, against the checksums `told` of which the client tells its
log. -/
structure AddUp (content : Bytes) (ts : List RoundTrip) (told : List UInt32) : Prop where
  differ : ∀ checksum ∈ told, checksum ≠ Checksum.crc32 content
  isPrefix : told <+: reported ts
  count_eq : (reported ts).countP (fun checksum => checksum ≠ Checksum.crc32 content) =
    told.length + ts.countP RoundTrip.isLostNotice
  last : ∀ t ∈ ts.dropLast, t.isLostNotice = false

theorem addUp_nil (content : Bytes) : AddUp content [] [] :=
  ⟨by simp, by simp, rfl, by simp⟩

/-- A round trip by itself, in which no checksum is reported and no notice is lost. -/
theorem addUp_singleton {content : Bytes} {trip : RoundTrip} (hr : trip.reported? = none)
    (hl : trip.isLostNotice = false) : AddUp content [trip] [] := by
  refine ⟨by simp, List.nil_prefix, ?_, by simp⟩
  simp [reported, hr, hl]

namespace Job

variable {ω : Type} {env : Environment ω} {job : Job} {trip upload notice : RoundTrip}

theorem IsUpload.isLostNotice_eq (h : job.IsUpload env trip) : trip.isLostNotice = false := by
  obtain ⟨w, sealed, -, hrequest⟩ := h
  rw [RoundTrip.isLostNotice, hrequest]

theorem IsVerdict.isLostNotice_eq {verdict : Verdict} (h : job.IsVerdict verdict trip)
    (hv : verdict ≠ .invalid) : trip.isLostNotice = false := by
  have hrequest : trip.request = .verdict verdict job.id job.file := h
  cases verdict with
  | invalid => exact absurd rfl hv
  | valid => rw [RoundTrip.isLostNotice, hrequest]
  | finalInvalid => rw [RoundTrip.isLostNotice, hrequest]

/-- An upload of which the notice is lost is reported, and not told. -/
theorem BreaksOff.addUp {ts : List RoundTrip} {e : TransferError} (h : job.BreaksOff env ts e) :
    AddUp job.content ts [] := by
  cases h with
  | prevented _ => exact addUp_nil _
  | lost hu houtcome =>
    exact addUp_singleton (RoundTrip.reported?_of_error houtcome) hu.isLostNotice_eq
  | @unnoticed upload notice checksum e hu hm hv houtcome =>
    obtain ⟨⟨file, size, hreports⟩, hne⟩ := hm
    have hlost : notice.isLostNotice = true := by
      have hrequest : notice.request = .verdict .invalid job.id job.file := hv
      rw [RoundTrip.isLostNotice, hrequest, houtcome]
    refine ⟨by simp, List.nil_prefix, ?_, ?_⟩
    · simp [reported, hreports.reported?_eq, RoundTrip.reported?_of_error houtcome, hlost,
        hu.isLostNotice_eq, hne]
    · simp [hu.isLostNotice_eq]

/-- A rejected upload is reported and told. -/
theorem IsRejected.addUp {checksum : UInt32} (h : job.IsRejected env upload notice checksum)
    {ts : List RoundTrip} {told : List UInt32} (hts : AddUp job.content ts told) :
    AddUp job.content (upload :: notice :: ts) (checksum :: told) := by
  obtain ⟨⟨file, size, hreports⟩, hne⟩ := h.isMisreported
  have hupload := h.isUpload.isLostNotice_eq
  have hnotice : notice.isLostNotice = false := by
    unfold RoundTrip.isLostNotice
    rw [h.passed]
    split
    · rename_i hstop
      cases hstop
    · rfl
  have hreported : reported (upload :: notice :: ts) = checksum :: reported ts := by
    have hsilent : notice.reported? = none := by
      rw [RoundTrip.reported?, h.passed]
    simp [reported, hreports.reported?_eq, hsilent]
  refine ⟨?_, ?_, ?_, ?_⟩
  · intro s hs
    rcases List.mem_cons.mp hs with rfl | hs
    · exact hne
    · exact hts.differ s hs
  · rw [hreported]
    exact (List.prefix_cons_inj checksum).mpr hts.isPrefix
  · rw [hreported, List.countP_cons_of_pos (by simpa using hne), hts.count_eq, List.length_cons,
      List.countP_cons_of_neg (by simp [hupload]), List.countP_cons_of_neg (by simp [hnotice])]
    omega
  · intro t ht
    cases ts with
    | nil =>
      rw [List.mem_singleton.mp ht]
      exact hupload
    | cons first rest =>
      rcases List.mem_cons.mp ht with rfl | ht
      · exact hupload
      rcases List.mem_cons.mp ht with rfl | ht
      · exact hnotice
      · exact hts.last t ht

/-- An upload that is confirmed, or not, was right; nothing else is reported where a transfer ends. -/
theorem EndsWithin.addUp {P : TransferError → Prop} {limit made : Nat} {ts : List RoundTrip}
    {r : Except TransferError Delivery} (h : job.EndsWithin env P limit made ts r) :
    AddUp job.content ts [] := by
  have hconfirmed {upload verdict : RoundTrip} {file : Name} {size : UInt32}
      (hu : job.IsUpload env upload)
      (hreports : upload.Reports file size (Checksum.crc32 job.content))
      (hr : verdict.reported? = none) (hl : verdict.isLostNotice = false) :
      AddUp job.content [upload, verdict] [] := by
    refine ⟨by simp, List.nil_prefix, ?_, ?_⟩
    · simp [reported, hreports.reported?_eq, hr, hl, hu.isLostNotice_eq]
    · simp [hu.isLostNotice_eq]
  cases h with
  | confirmed _ hu hreports hv hacknowledged =>
    exact hconfirmed hu hreports hacknowledged.reported?_eq (hv.isLostNotice_eq (by decide))
  | unconfirmed _ hu hreports hv houtcome =>
    exact hconfirmed hu hreports (RoundTrip.reported?_of_error houtcome)
      (hv.isLostNotice_eq (by decide))
  | abandoned _ hv hacknowledged =>
    exact addUp_singleton hacknowledged.reported?_eq (hv.isLostNotice_eq (by decide))
  | unheard _ hv houtcome =>
    exact addUp_singleton (RoundTrip.reported?_of_error houtcome) (hv.isLostNotice_eq (by decide))
  | brokenOff _ hbreaks => exact hbreaks.addUp

/-- What is reported while the uploads of a job are made, by induction on the rejected ones. -/
theorem Goes.addUp {P : TransferError → Prop} {limit made : Nat} {deeds : List Deed}
    {rejected : List (RoundTrip × RoundTrip)} {wrong : List UInt32} {ending : List RoundTrip}
    {r : Except TransferError Delivery}
    (h : job.Goes env P limit made deeds rejected wrong ending r) :
    AddUp job.content (Client.trips (Deed.acts deeds)) wrong := by
  rw [h.trips_eq]
  have hends := h.ends.addUp
  have hall := h.allRejected
  clear h
  induction hall with
  | nil => exact hends
  | cons hrejected _ ih => exact hrejected.addUp ih

end Job

end Courier
