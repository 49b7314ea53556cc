import Courier.Proofs.Client.Accounting
import Courier.Proofs.Client.OperationCourses

namespace Courier.Client

/-- What a result brings: the gain if it is a success, and otherwise nothing. -/
def earned {ε α : Type} (gain : Metrics) : Except ε α → Metrics
  | .ok _ => gain
  | .error _ => 0

variable {s : Session} {deeds : List Deed} {file : Name} {content : Bytes} {retries : UInt32}

section Balances

open Deed

/-- A round trip about anything but an upload, by itself. -/
theorem balances_trip {trip : RoundTrip} (h : trip.request.code ≠ .sendFile) :
    Balances [.noted (.roundTrip trip)] 0 := by
  simp [Balances, RoundTrip.attempt_of_code_ne h, trips]

theorem RestoreCourse.balances {y : Except Stop ClientId} (h : RestoreCourse deeds y) :
    Balances deeds 0 := by
  cases h <;> rfl

theorem RegisterCourse.balances {username : String} {y : Except Stop ClientId}
    (h : RegisterCourse s username deeds y) : Balances deeds 0 := by
  cases h with
  | invalid => rfl
  | lost _ hrequest | refused _ hrequest | keyless _ hrequest | unstored _ hrequest
  | adopted _ hrequest => exact balances_trip (by rw [hrequest]; nofun)

theorem TakeCourse.balances {wrapped : Bytes} {y : Except Stop Unit}
    (h : TakeCourse s wrapped deeds y) : Balances deeds (earned (0 : Metrics).keyInstalled y) := by
  cases h with
  | ownerless | unusable => simp [Balances, trips, earned]
  | installed => simp [Balances, trips, earned]; rfl

theorem KeyCourse.balances {request : Request} {y : Except Stop Unit}
    (h : KeyCourse s request deeds y) (hcode : request.code ≠ .sendFile) :
    Balances deeds (earned (0 : Metrics).keyInstalled y) := by
  cases h with
  | lost hrequest | denied hrequest => exact balances_trip (by rwa [hrequest])
  | taken hrequest _ htake =>
    rw [← Metrics.zero_add (earned _ _)]
    exact (balances_trip (by rwa [hrequest])).append htake.balances

theorem KeySource.balances {y : Except Stop PublicKey} (h : KeySource s deeds y) :
    Balances deeds 0 := by
  cases h <;> rfl

theorem ExchangeCourse.balances {y : Except Stop Unit} (h : ExchangeCourse s deeds y) :
    Balances deeds (earned (0 : Metrics).keyInstalled y) := by
  cases h with
  | unregistered => rfl
  | unasked _ hsource => exact hsource.balances
  | asked _ hsource hcourse =>
    rw [← Metrics.zero_add (earned _ _)]
    exact hsource.balances.append (hcourse.balances (by nofun))

theorem ReconnectCourse.balances {y : Except Stop Unit} (h : ReconnectCourse s deeds y) :
    Balances deeds (earned (0 : Metrics).keyInstalled y) := by
  cases h with
  | unregistered => rfl
  | asked _ hcourse => exact hcourse.balances (by nofun)

/-- An upload is counted as an attempt before a connection is asked for. -/
theorem balances_upload {job : Job} {sealed : Bytes} {trip : RoundTrip}
    (h : trip.request = .sendFile job.id job.file sealed) :
    Balances (Deed.upload job sealed trip) 0 := by
  simp [Balances, Deed.upload, trips, RoundTrip.attempt_of_sendFile h]
  rfl

theorem TryCourse.balances {y : Except Stop Receipt} (h : TryCourse s file content deeds y) :
    Balances deeds 0 := by
  cases h with
  | unready | unsealed | unsendable => rfl
  | lost _ hrequest | accepted _ hrequest => exact balances_upload hrequest
  | rejected _ hrequest _ _ hnotice | unnoticed _ hrequest _ _ hnotice =>
    rw [← Metrics.zero_add 0]
    exact (balances_upload hrequest).append (balances_trip (by rw [hnotice]; nofun))

theorem VerdictCourse.balances {verdict : Verdict} {y : Except Stop Unit}
    (h : VerdictCourse s verdict file deeds y) : Balances deeds 0 := by
  have hcode (id : ClientId) : (Request.verdict verdict id file).code ≠ .sendFile := by
    cases verdict <;> simp [Request.code, Verdict.code]
  cases h with
  | unready => rfl
  | lost _ hrequest | acknowledged _ hrequest => exact balances_trip (by rw [hrequest]; exact hcode _)

theorem UploadCourse.balances {remaining made : Nat} {y : Except Stop Delivery}
    (h : UploadCourse s file content remaining made deeds y) : Balances deeds 0 := by
  refine h.all (M := (Balances · 0)) ?_ (·.balances) (fun h _ => h.balances) fun _ _ _ => rfl
  intro ds es hds hes
  rw [← Metrics.zero_add 0]
  exact hds.append hes

theorem WorkCourse.balances {path : Bytes} {y : Except Stop Delivery}
    (h : WorkCourse retries s path file deeds y) : Balances deeds 0 := by
  cases h with
  | unread => rfl
  | @read content deeds y hupload =>
    have hload : Balances [.noted (.loadedFile path (.ok content))] 0 := rfl
    rw [← Metrics.zero_add 0]
    exact hload.append hupload.balances

theorem TransferCourse.balances {path : Bytes} {r : Except TransferError Delivery}
    (h : TransferCourse retries s path deeds (r.mapError .failed)) :
    Balances deeds (Metrics.closing r) := by
  rcases h.refused_or_closed with ⟨rfl, e, rfl, hplain, -⟩ | ⟨file, t, work, m, -, -, hwork, rfl⟩
  · rw [Metrics.closing_of_isPlain hplain]
    rfl
  · have hbegun : Balances [.changed (s.withPendingFile path), .changed t] 0 := rfl
    have hend : Balances (Deed.closing t file r ++ [.told (.metricsSnapshot m)])
        (Metrics.closing r) := by
      have hsettled := Metrics.settled_of_crcMismatches (Metrics.crcMismatches_closing r)
      simp [Balances, Deed.closing, trips, hsettled]
    have hwhole := hbegun.append (hwork.balances.append hend)
    rw [Metrics.zero_add, Metrics.zero_add] at hwhole
    exact hwhole

end Balances

section Answers

/-- A request for a key that succeeds has been answered. -/
theorem KeyCourse.answered {request : Request} (h : KeyCourse s request deeds (.ok ())) :
    ∃ t ∈ trips (Deed.acts deeds), t.answered request.code := by
  cases h with
  | @taken trip wrapped deeds y hrequest hbrings htake =>
    refine ⟨trip, .head _, ?_⟩
    cases hbrings with
    | exchanged _ houtcome | recognised _ houtcome =>
      exact RoundTrip.answered_of_outcome hrequest houtcome

theorem ExchangeCourse.answered (h : ExchangeCourse s deeds (.ok ())) :
    ∃ t ∈ trips (Deed.acts deeds), t.answered .sendPublicKey := by
  cases h with
  | asked _ _ hcourse =>
    obtain ⟨t, ht, hanswered⟩ := hcourse.answered
    rw [Deed.acts_append, trips_append]
    exact ⟨t, List.mem_append_right _ ht, hanswered⟩

theorem ReconnectCourse.answered (h : ReconnectCourse s deeds (.ok ())) :
    ∃ t ∈ trips (Deed.acts deeds), t.answered .reconnect := by
  cases h with
  | asked _ hcourse => exact hcourse.answered

theorem TryCourse.answered {receipt : Receipt} (h : TryCourse s file content deeds (.ok receipt)) :
    ∃ t ∈ trips (Deed.acts deeds), t.answered .sendFile := by
  cases h with
  | @accepted id key sealed upload delivered size _ hrequest hreports =>
    obtain ⟨echoed, houtcome⟩ := hreports
    exact ⟨upload, .head _, RoundTrip.answered_of_outcome hrequest houtcome⟩

theorem VerdictCourse.answered {verdict : Verdict}
    (h : VerdictCourse s verdict file deeds (.ok ())) :
    ∃ t ∈ trips (Deed.acts deeds), t.answered verdict.code := by
  cases h with
  | @acknowledged id trip _ hrequest hacknowledged =>
    obtain ⟨echoed, houtcome⟩ := hacknowledged
    exact ⟨trip, .head _, RoundTrip.answered_of_outcome hrequest houtcome⟩

/-- A file that is delivered has been uploaded and confirmed. -/
theorem UploadCourse.answered {remaining made : Nat} {delivery : Delivery}
    (h : UploadCourse s file content remaining made deeds (.ok delivery)) :
    ∀ code ∈ [.sendFile, .validCrc], ∃ t ∈ trips (Deed.acts deeds), t.answered code := by
  generalize hy : (.ok delivery : Except Stop Delivery) = y at h
  induction h with
  | abandoned | unheard | unconfirmed | hung | brokenOff => cases hy
  | confirmed honce hconfirm =>
    rw [Deed.acts_append, trips_append]
    obtain ⟨t, ht, hsent⟩ := honce.answered
    obtain ⟨u, hu, hconfirmed⟩ := hconfirm.answered
    intro code hcode
    simp only [List.mem_cons, List.not_mem_nil, or_false] at hcode
    rcases hcode with rfl | rfl
    · exact ⟨t, List.mem_append_left _ ht, hsent⟩
    · exact ⟨u, List.mem_append_right _ hu, hconfirmed⟩
  | again _ _ _ ih =>
    rw [Deed.acts_append, trips_append]
    intro code hcode
    obtain ⟨t, ht, hanswered⟩ := ih hy code hcode
    exact ⟨t, List.mem_append_right _ ht, hanswered⟩

theorem TransferCourse.answered {path : Bytes} {delivery : Delivery}
    (h : TransferCourse retries s path deeds (.ok delivery)) :
    ∀ code ∈ [.sendFile, .validCrc], ∃ t ∈ trips (Deed.acts deeds), t.answered code := by
  rcases TransferCourse.refused_or_closed (r := .ok delivery) h with
    ⟨-, e, he, -⟩ | ⟨file, t, work, m, -, -, hwork, rfl⟩
  · cases he
  · obtain _ | hupload := hwork
    intro code hcode
    obtain ⟨trip, htrip, hanswered⟩ := hupload.answered code hcode
    refine ⟨trip, ?_, hanswered⟩
    rw [Deed.acts_changed, Deed.acts_changed, Deed.acts_append, trips_append]
    exact List.mem_append_left _ htrip

end Answers

end Courier.Client
