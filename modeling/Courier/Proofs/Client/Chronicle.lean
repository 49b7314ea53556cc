import Courier.Proofs.Client.Telling

namespace Courier

/-- What is told last of a transfer of a file that may be uploaded `limit` times, after `wrong` uploads
that the server got wrong. -/
inductive Event.Closes (file : Name) (limit wrong : Nat) :
    Except TransferError Delivery → Event → Prop where
  | confirmed {delivery : Delivery} :
    wrong < limit → delivery.attempts = wrong + 1 →
      Closes file limit wrong (.ok delivery)
        (.transferConfirmed delivery.file (wrong + 1) delivery.checksum)
  | abandoned {attempts : UInt32} :
    wrong = limit → attempts.toNat = wrong →
      Closes file limit wrong (.error (.transferAbandoned attempts))
        (.transferAbandoned file attempts)
  | interrupted {e : TransferError} :
    (∀ attempts, e ≠ .transferAbandoned attempts) →
      Closes file limit wrong (.error e) (.transferInterrupted file e)

theorem Event.Closes.of_isPlain {file : Name} {limit wrong : Nat} {e : TransferError}
    (h : e.IsPlain) : Closes file limit wrong (.error e) (closing file (.error e)) := by
  have hne : ∀ attempts, e ≠ .transferAbandoned attempts := by
    rintro attempts rfl
    exact h
  rw [closing_of_ne hne]
  exact .interrupted hne

theorem Job.EndsWithin.closes {ω : Type} {env : Environment ω} {job : Job} {limit wrong : Nat}
    {ts : List RoundTrip} {r : Except TransferError Delivery}
    (h : job.EndsWithin env TransferError.IsPlain limit wrong ts r) :
    Event.Closes job.file limit wrong r (Event.closing job.file r) := by
  cases h with
  | confirmed hlt => exact .confirmed hlt rfl
  | abandoned heq _ _ hattempts => exact .abandoned heq (hattempts.trans heq.symm)
  | brokenOff _ _ hplain | unconfirmed _ _ _ _ _ hplain | unheard _ _ _ hplain =>
    exact .of_isPlain hplain

namespace Client

variable {ω : Type} {env : Environment ω} {c d : Client ω} {r : Except TransferError Delivery}

/-- A transfer tells, in order, of each upload that the server got wrong, with the checksum that the
server reported, of its own result, and of the counters. -/
theorem transfer_chronicle (hn : env.IsNeutral) {path : Bytes}
    (hplain : ∀ w, FailsPlainly (env.loadFile path w).1) {file : Name} {s : Session}
    (hname : Path.wireName path = .ok file)
    (hbegin : (c.session.withPendingFile path).beginTransfer = .ok s)
    (h : (transfer env path).Returns c r d) :
    ∃ ts wrong entries reports closing,
      trips d.journal = trips c.journal ++ ts ∧ (∀ t ∈ ts, t.Held env) ∧
      d.log = c.log ++ entries ∧
      (entries.filter fun e => !e.isVersionNote) =
        reports ++ [closing, .metricsSnapshot d.metrics] ∧
      Event.Closes file (min (env.maxRetries.toNat + 1) (2 ^ 32 - 1)) wrong.length r closing ∧
      wrong.length ≤ min (env.maxRetries.toNat + 1) (2 ^ 32 - 1) ∧ wrong <+: reported ts ∧
      (∀ content, (env.loadFile path c.world).1 = .ok content →
        (∀ checksum ∈ wrong, checksum ≠ Checksum.crc32 content) ∧
        reports = wrong.mapIdx fun i checksum =>
          .checksumMismatch (i + 1) (min (env.maxRetries.toNat + 1) (2 ^ 32 - 1) - (i + 1))
            (.integrityMismatch (Checksum.crc32 content) checksum)) ∧
      ∀ e, (env.loadFile path c.world).1 = .error e → reports = [] ∧ ts = [] ∧ r = .error e := by
  obtain ⟨work, m, k, entries, hwork, hworld, hdoes, htrips, hlog, hnews, -⟩ :=
    transfer_tells hname hbegin h
  rcases hwork.read_or_not hdoes with ⟨e, hunread, rfl, rfl⟩ | ⟨content, uploads, n, hread, -⟩
  · have hclosing : Event.Closes file (min (env.maxRetries.toNat + 1) (2 ^ 32 - 1)) 0 (.error e)
        (Event.closing file (.error e)) :=
      .of_isPlain (hplain _ e hunread)
    rw [hworld] at hunread
    refine ⟨[], [], entries, [], _, htrips, by simp, hlog, hnews, hclosing, Nat.zero_le _,
      List.nil_prefix, ?_, ?_⟩
    · intro content hcontent
      cases hunread.symm.trans hcontent
    · intro e' he
      cases hunread.symm.trans he
      exact ⟨rfl, rfl, rfl⟩
  · obtain ⟨id, key, hs⟩ := Job.exists_fitsSession hbegin file content
    obtain ⟨rejected, wrong, ending, hgoes⟩ := WorkCourse.goes hn.failsWithin (fun _ he => he)
      (fun _ he => he.not_isRetryable) hs hread hwork hdoes
    have hlength := hgoes.allRejected.length_eq
    have hends := hgoes.ends
    have hle := hgoes.length_le
    rw [Nat.zero_add, hlength] at hends hle
    rw [hgoes.events_eq, Event.news_mismatches] at hnews
    rw [hworld] at hread
    refine ⟨_, wrong, entries, _, _, htrips, hdoes.held, hlog, hnews, hends.closes, hle,
      hgoes.addUp.isPrefix, ?_, ?_⟩
    · intro content' hcontent
      cases hread.symm.trans hcontent
      refine ⟨hgoes.addUp.differ, ?_⟩
      unfold Event.mismatches
      simp only [Nat.zero_add]
    · intro e he
      cases hread.symm.trans he

/-- A server gets an upload of an empty file wrong once, and right when it is made again. -/
theorem transfer_chronicle_second_try :
    ∃ (c d : Client (List Stream)) (ts : List RoundTrip) (wrong : List UInt32)
        (reports : List Event) (closing : Event),
      c.world = [heedful [.data (reportOf [1, 0, 0, 0])], heedful [],
        heedful [.data (reportOf [0, 0, 0, 0])], heedful [.data acknowledgement]] ∧
      (transfer inTurn [0x61]).Returns c (.ok ⟨.empty, 2, 0, 0⟩) d ∧ trips d.journal = ts ∧
      (d.log.filter fun e => !e.isVersionNote) = reports ++ [closing, .metricsSnapshot d.metrics] ∧
      Event.Closes ⟨"a"⟩ 4 wrong.length (.ok ⟨.empty, 2, 0, 0⟩) closing ∧ wrong.length ≤ 4 ∧
      wrong <+: reported ts ∧ (∀ checksum ∈ wrong, checksum ≠ 0) ∧
      reports = wrong.mapIdx fun i checksum =>
        .checksumMismatch (i + 1) (4 - (i + 1)) (.integrityMismatch 0 checksum) := by
  let session : Session :=
    { Session.new with
      id := ⟨List.replicate 16 1, rfl⟩
      symmetricKey := some ⟨List.replicate 16 2, rfl⟩ }
  let c : Client (List Stream) :=
    { new [heedful [.data (reportOf [1, 0, 0, 0])], heedful [],
        heedful [.data (reportOf [0, 0, 0, 0])], heedful [.data acknowledgement]] with session }
  have hname : Path.wireName [0x61] = .ok ⟨"a"⟩ := by decide +kernel
  have hrun : (Action.ended (transfer inTurn [0x61] c)).any (fun p =>
      decide (p.1 = .ok ⟨.empty, 2, 0, 0⟩)) = true := by
    decide +kernel
  obtain ⟨⟨r, d⟩, hd, hr⟩ := (Option.any_eq_true _ _).mp hrun
  cases of_decide_eq_true hr
  obtain ⟨ts, wrong, entries, reports, closing, htrips, -, hlog, hnews, hcloses, hle, hprefix,
    hread, -⟩ :=
    transfer_chronicle inTurn_isNeutral (fun _ => failsPlainly_ok _) (c := c) hname rfl hd
  obtain ⟨hdiffer, hreports⟩ := hread [] rfl
  obtain rfl : d.log = entries := hlog
  exact ⟨c, d, ts, wrong, reports, closing, rfl, hd, htrips, hnews, hcloses, hle, hprefix, hdiffer,
    hreports⟩

end Client

end Courier
