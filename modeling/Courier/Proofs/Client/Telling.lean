import Courier.Proofs.Client.Accounting
import Courier.Proofs.Client.Reported
import Courier.Proofs.Transport.Reporting

namespace Courier

namespace Event

/-- The events but those about foreign versions. -/
def news (log : List Event) : List Event :=
  log.filter fun e => !e.isVersionNote

theorem news_append (as bs : List Event) : news (as ++ bs) = news as ++ news bs :=
  List.filter_append _ _

theorem news_of_versionNotes {notes : List Event} (h : ∀ e ∈ notes, e.isVersionNote) :
    news notes = [] := by
  apply List.filter_eq_nil_iff.mpr
  intro e he
  rw [h e he]
  decide

theorem news_mismatches (checksum : UInt32) (limit made : Nat) (wrong : List UInt32) :
    news (mismatches checksum limit made wrong) =
      mismatches checksum limit made wrong := by
  apply List.filter_eq_self.mpr
  intro e he
  obtain ⟨i, hi, rfl⟩ := List.mem_mapIdx.mp he
  rfl

theorem news_closing (file : Name) (r : Except TransferError Delivery) (m : Metrics) :
    news [closing file r, .metricsSnapshot m] =
      [closing file r, .metricsSnapshot m] := by
  unfold closing
  split <;> rfl

end Event

namespace Client

variable {ω : Type} {env : Environment ω} {c d : Client ω} {deeds : List Deed} {trip : RoundTrip}

/-- No round trip counts wrong uploads. -/
theorem Does.crcMismatches_eq (h : Does env c deeds d) :
    d.metrics.crcMismatches = c.metrics.crcMismatches + (Deed.gains deeds).crcMismatches := by
  have hfares : ((trips (Deed.acts deeds)).map RoundTrip.fare).sum.crcMismatches = 0 :=
    congrArg Metrics.crcMismatches (RoundTrip.settled_fares _).symm
  have hsum := congrArg Metrics.crcMismatches h.metrics_eq
  rw [hsum]
  change _ + (_ + _) = _
  rw [hfares, UInt64.zero_add]

/-- A connection reports foreign versions only. -/
theorem Converses.log_eq (h : Converses env c trip d) (hended : trip.outcome ≠ .error .hung) :
    ∃ notes, d.log = c.log ++ notes ∧ ∀ e ∈ notes, e.isVersionNote := by
  cases h with
  | unconnected => exact ⟨[], (List.append_nil _).symm, by simp⟩
  | @connected request stream w left y hconnect htalk =>
    obtain ⟨r, rfl, hr⟩ := Action.returns_of_leads htalk hended
    obtain ⟨notes, hlog, hnotes⟩ := request.talk_notesVersions _ _ _ hr
    exact ⟨notes, congrArg (c.log ++ ·) hlog, hnotes⟩

/-- Besides foreign versions just the events among the deeds are told. -/
theorem Does.log_eq (h : Does env c deeds d) :
    ∃ entries, d.log = c.log ++ entries ∧
      Event.news entries = Event.news (Deed.events deeds) := by
  induction h with
  | nil => exact ⟨[], (List.append_nil _).symm, rfl⟩
  | cons hfirst _ ih =>
    obtain ⟨entries, hlog, hnews⟩ := ih
    cases hfirst with
    | asked | counted | changed => exact ⟨entries, hlog, hnews⟩
    | @conversed trip m hconverses hended =>
      obtain ⟨notes, hm, hnotes⟩ := hconverses.log_eq hended
      refine ⟨notes ++ entries, ?_, ?_⟩
      · rw [hlog, hm, List.append_assoc]
      · rw [Event.news_append, Event.news_of_versionNotes hnotes]
        exact hnews
    | @told e =>
      refine ⟨e :: entries, ?_, ?_⟩
      · rw [hlog, List.append_assoc]
        rfl
      · change Event.news ([e] ++ entries) = Event.news ([e] ++ _)
        rw [Event.news_append, Event.news_append, hnews]
        rfl

section Transfers

variable {P : TransferError → Prop} {r : Except TransferError Delivery}

/-- What a transfer tells and counts that has begun: what its work does, and how it is closed. -/
theorem transfer_tells {path : Bytes} {file : Name} {t : Session}
    (hname : Path.wireName path = .ok file)
    (hbegin : (c.session.withPendingFile path).beginTransfer = .ok t)
    (h : (transfer env path).Returns c r d) :
    ∃ work m k entries, WorkCourse env.maxRetries t path file work (r.mapError .failed) ∧
      m.world = c.world ∧ Does env m work k ∧
      trips d.journal = trips c.journal ++ trips (Deed.acts work) ∧
      d.log = c.log ++ entries ∧
      Event.news entries = Event.news (Deed.events work) ++
        [Event.closing file r, .metricsSnapshot d.metrics] ∧
      d.metrics.crcMismatches = c.metrics.crcMismatches + (Deed.gains work).crcMismatches := by
  obtain ⟨work, m, k, hwork, hworld, hdoes, hwhole⟩ := transfer_deeds hname hbegin h
  obtain ⟨entries, hlog, hnews⟩ := hwhole.log_eq
  have htrips := hwhole.trips_eq
  have hmetrics := hwhole.crcMismatches_eq
  refine ⟨work, m, k, entries, hwork, hworld, hdoes, ?_, hlog, ?_, ?_⟩
  · simpa [Deed.closing, trips] using htrips
  · rw [hnews, Deed.events_changed, Deed.events_changed, Deed.events_append, Event.news_append]
    congr 1
    exact Event.news_closing file r _
  · rw [hmetrics, Deed.gains_changed, Deed.gains_changed, Deed.gains_append]
    have hclosing : (Deed.gains work + (Metrics.closing r + 0)).crcMismatches =
        (Deed.gains work).crcMismatches + ((Metrics.closing r).crcMismatches + 0) := rfl
    have hend : Deed.gains (Deed.closing t file r ++ [.told (.metricsSnapshot d.metrics)]) =
        Metrics.closing r + 0 := by
      simp [Deed.closing]
    rw [hend, hclosing, Metrics.crcMismatches_closing, UInt64.add_zero, UInt64.add_zero]

end Transfers

end Client

end Courier
