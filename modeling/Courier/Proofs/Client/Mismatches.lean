import Courier.Proofs.Client.Telling

namespace Courier

/-- Where only the last round trip may be a lost notice, there is one at most. -/
theorem lostNotices_le_one {ts : List RoundTrip} (h : ∀ t ∈ ts.dropLast, t.isLostNotice = false) :
    ts.countP RoundTrip.isLostNotice ≤ 1 := by
  rcases List.eq_nil_or_concat ts with rfl | ⟨front, last, rfl⟩
  · exact Nat.zero_le 1
  · rw [List.concat_eq_append, List.dropLast_concat] at h
    have hfront : front.countP RoundTrip.isLostNotice = 0 := by
      apply List.countP_eq_zero.mpr
      intro t ht
      simp [h t ht]
    rw [List.concat_eq_append, List.countP_append, hfront, Nat.zero_add]
    exact List.countP_le_length

/-- A counter that is at most one behind a number is the number just if it is not behind. -/
theorem eq_iff_of_behind {n m : UInt64} {k : Nat} (hk : k ≤ 1) (h : n + .ofNat k = m) :
    n = m ↔ k = 0 := by
  subst h
  rcases Nat.le_one_iff_eq_zero_or_eq_one.mp hk with rfl | rfl
  · simp
  · simp

namespace Client

variable {ω : Type} {env : Environment ω} {c d : Client ω} {r : Except TransferError Delivery}

/-- What a transfer adds to the counter of differing checksums is how many the server reported, but for
one of which the notice is lost, and such a notice is the last thing that the transfer does. -/
theorem transfer_mismatches (hf : env.FailsWithin fun e => e.isRetryable = false) {path : Bytes}
    (h : (transfer env path).Returns c r d) :
    ∃ ts, trips d.journal = trips c.journal ++ ts ∧ (∀ t ∈ ts, t.Held env) ∧
      ((∀ content, (env.loadFile path c.world).1 ≠ .ok content) →
        ts = [] ∧ d.metrics.crcMismatches = c.metrics.crcMismatches) ∧
      ∀ content, (env.loadFile path c.world).1 = .ok content →
        (∀ t ∈ ts.dropLast, t.isLostNotice = false) ∧
        d.metrics.crcMismatches + .ofNat (ts.countP RoundTrip.isLostNotice) =
          c.metrics.crcMismatches +
            .ofNat ((reported ts).countP fun checksum => checksum ≠ Checksum.crc32 content) ∧
        (d.metrics.crcMismatches = c.metrics.crcMismatches +
            .ofNat ((reported ts).countP fun checksum => checksum ≠ Checksum.crc32 content) ↔
          ∀ t ∈ ts, t.isLostNotice = false) := by
  obtain ⟨deeds, hcourse, hd⟩ := (transfer_follows _ path).of_returns h
  rcases hcourse.refused_or_closed with ⟨rfl, -⟩ | ⟨file, t, -, -, hname, hbegin, -⟩
  · have hcount : d.metrics.crcMismatches = c.metrics.crcMismatches := by
      rw [hd.crcMismatches_eq]
      exact UInt64.add_zero _
    refine ⟨[], hd.trips_eq, by simp, fun _ => ⟨rfl, hcount⟩, ?_⟩
    intro content _
    simp [reported, hcount]
  obtain ⟨work, m, k, -, hwork, hworld, hdoes, htrips, -, -, hcount⟩ :=
    transfer_tells hname hbegin h
  refine ⟨_, htrips, hdoes.held, ?_⟩
  rcases hwork.read_or_not hdoes with ⟨e, hunread, -, rfl⟩ | ⟨content, uploads, n, hread, -⟩
  · rw [hworld] at hunread
    refine ⟨fun _ => ⟨rfl, hcount.trans (UInt64.add_zero _)⟩, ?_⟩
    intro content hcontent
    cases hunread.symm.trans hcontent
  · obtain ⟨id, key, hs⟩ := Job.exists_fitsSession hbegin file content
    obtain ⟨rejected, wrong, ending, hgoes⟩ := WorkCourse.goes hf (fun _ he => he.not_isRetryable)
      (fun _ he => he) hs hread hwork hdoes
    rw [hworld] at hread
    refine ⟨fun hunread => absurd hread (hunread content), ?_⟩
    intro content' hcontent
    cases hread.symm.trans hcontent
    have hadd := hgoes.addUp
    have hbehind : d.metrics.crcMismatches +
        .ofNat ((trips (Deed.acts work)).countP RoundTrip.isLostNotice) =
          c.metrics.crcMismatches + .ofNat ((reported (trips (Deed.acts work))).countP
            fun checksum => checksum ≠ Checksum.crc32 content) := by
      rw [hcount, hgoes.count_eq, hadd.count_eq, UInt64.ofNat_add, UInt64.add_assoc]
    refine ⟨hadd.last, hbehind, ?_⟩
    rw [eq_iff_of_behind (lostNotices_le_one hadd.last) hbehind, List.countP_eq_zero]
    simp

/-- A client that can upload, once: the server gets an empty file wrong, and no stream is left for the
notice. -/
def misheard : Client (List Stream) :=
  { new [heedful [.data (reportOf [1, 0, 0, 0])]] with
    session := { Session.new with
      id := ⟨List.replicate 16 1, rfl⟩
      symmetricKey := some ⟨List.replicate 16 2, rfl⟩ } }

theorem transfer_mismatches_misheard :
    ∃ (d : Client (List Stream)) (ts : List RoundTrip),
      (transfer inTurn [0x61]).Returns misheard (.error (.connectFailed "server" "none left")) d ∧
      trips d.journal = ts ∧
      d.metrics.crcMismatches + .ofNat (ts.countP RoundTrip.isLostNotice) =
        .ofNat ((reported ts).countP fun checksum => checksum ≠ Checksum.crc32 []) ∧
      (d.metrics.crcMismatches =
          .ofNat ((reported ts).countP fun checksum => checksum ≠ Checksum.crc32 []) ↔
        ∀ t ∈ ts, t.isLostNotice = false) := by
  have hf : inTurn.FailsWithin fun e => e.isRetryable = false :=
    inTurn_isNeutral.failsWithin.mono fun _ he => he.not_isRetryable
  have hrun : (Action.ended (transfer inTurn [0x61] misheard)).any (fun p =>
      decide (p.1 = .error (.connectFailed "server" "none left"))) = true := by
    decide +kernel
  obtain ⟨⟨r, d⟩, hd, hr⟩ := (Option.any_eq_true _ _).mp hrun
  cases of_decide_eq_true hr
  obtain ⟨ts, htrips, -, -, hread⟩ := transfer_mismatches hf hd
  obtain ⟨-, hcount, hiff⟩ := hread [] rfl
  have hnone : misheard.metrics.crcMismatches = 0 := rfl
  rw [hnone, UInt64.zero_add] at hcount hiff
  exact ⟨d, ts, hd, htrips, hcount, hiff⟩

/-- A checksum that the server reports is not the content's, and is not counted. -/
theorem mismatch_not_counted :
    inTurn.FailsWithin (fun e => e.isRetryable = false) ∧
      (inTurn.loadFile [0x61] misheard.world).1 = .ok [] ∧
      ∃ (d : Client (List Stream)) (ts : List RoundTrip),
        (transfer inTurn [0x61]).Returns misheard (.error (.connectFailed "server" "none left"))
          d ∧
        trips d.journal = trips misheard.journal ++ ts ∧
        (reported ts).countP (fun checksum => checksum ≠ Checksum.crc32 []) = 1 ∧
        misheard.metrics.crcMismatches = 0 ∧ d.metrics.crcMismatches = 0 := by
  have hf : inTurn.FailsWithin fun e => e.isRetryable = false :=
    inTurn_isNeutral.failsWithin.mono fun _ he => he.not_isRetryable
  have hrun : (Action.ended (transfer inTurn [0x61] misheard)).any (fun p =>
      decide (p.1 = .error (.connectFailed "server" "none left") ∧
        (reported (trips p.2.journal)).countP (fun checksum => checksum ≠ Checksum.crc32 []) = 1 ∧
        p.2.metrics.crcMismatches = 0)) = true := by
    decide +kernel
  obtain ⟨⟨r, d⟩, hd, hr⟩ := (Option.any_eq_true _ _).mp hrun
  obtain ⟨rfl, hreported, hcount⟩ := of_decide_eq_true hr
  exact ⟨hf, rfl, d, trips d.journal, hd, rfl, hreported, rfl, hcount⟩

end Client

end Courier
