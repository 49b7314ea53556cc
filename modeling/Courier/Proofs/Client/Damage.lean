import Courier.Proofs.Checksum
import Courier.Proofs.Client.Uploads

namespace Courier.Client

open Checksum Bytes

variable {ω : Type} {env : Environment ω} {file : Name} {content : Bytes} {c d : Client ω}

/-- An upload is accepted after one round trip, on the server's word that the checksum is that of
the content. -/
theorem uploadOnce_ok {receipt : Receipt}
    (h : (uploadOnce env file content).Returns c (.ok receipt) d) :
    ∃ upload, trips d.journal = trips c.journal ++ [upload] ∧
      upload.Reports receipt.file receipt.contentSize (crc32 content) := by
  obtain ⟨deeds, hcourse, hd⟩ := (uploadOnce_follows _ file content).of_returns h
  generalize hy : (Except.mapError Stop.failed (.ok receipt) : Except Stop _) = y at hcourse
  cases hcourse with
  | @accepted id key sealed upload name size _ _ hreports =>
    cases hy
    exact ⟨upload, hd.trips_eq, hreports⟩
  | _ => cases hy

/-- No burst leaves the checksum as it was, and a single bit the other way is a burst. An upload for
which the server reports the checksum of a content that a burst has changed is not accepted. -/
theorem damage_is_detected (content : Bytes) :
    (∀ damaged, Burst content damaged → crc32 damaged ≠ crc32 content) ∧
      (∀ i, i < 8 * content.length → crc32 (content.flipBit i) ≠ crc32 content) ∧
      ∀ {ω : Type} (env : Environment ω) (file name : Name) (size : UInt32) (damaged : Bytes)
          (c d : Client ω) (r : Except TransferError Receipt) (ts : List RoundTrip),
        Burst content damaged → (uploadOnce env file content).Returns c r d →
          trips d.journal = trips c.journal ++ ts →
          (∃ trip ∈ ts, trip.Reports name size (crc32 damaged)) → ∃ e, r = .error e := by
  refine ⟨fun damaged h => crc32_ne_of_burst h, ?_, ?_⟩
  · intro i hi
    exact crc32_ne_of_burst (burst_flipBit hi)
  · intro ω env file name size damaged c d r ts hburst h hts hreport
    cases r with
    | error e => exact ⟨e, rfl⟩
    | ok receipt =>
      exfalso
      obtain ⟨upload, htrips, echoed, houtcome⟩ := uploadOnce_ok h
      obtain rfl : ts = [upload] := List.append_cancel_left (hts.symm.trans htrips)
      obtain ⟨trip, hmem, echoed', hreported⟩ := hreport
      obtain rfl := List.mem_singleton.mp hmem
      have hsame : crc32 damaged = crc32 content := by
        rw [houtcome] at hreported
        simp at hreported
        exact hreported.2.2.2.symm
      exact crc32_ne_of_burst hburst hsame

/-- Of five zeros the first bit and the last one of a burst are turned over, and the server reports
the checksum of what it got. -/
theorem damage_is_detected_in_five_bytes :
    ∃ (damaged : Bytes) (c d : Client (List Stream)) (r : Except TransferError Receipt)
        (trip : RoundTrip),
      Burst [0, 0, 0, 0, 0] damaged ∧ crc32 damaged ≠ crc32 [0, 0, 0, 0, 0] ∧
      crc32 (flipBit 17 [0, 0, 0, 0, 0]) ≠ crc32 [0, 0, 0, 0, 0] ∧
      (uploadOnce inTurn ⟨"a"⟩ [0, 0, 0, 0, 0]).Returns c r d ∧ trip ∈ trips d.journal ∧
      trip.Reports .empty 0 (crc32 damaged) ∧ ∃ e, r = .error e := by
  let damaged : Bytes := [8, 0, 0, 0, 4]
  have hburst : Burst [0, 0, 0, 0, 0] damaged := by
    refine ⟨rfl, by decide, 3, ?_⟩
    intro i hi
    by_cases hend : i < 40
    · exact (by decide : ∀ i, i < 40 → bit [0, 0, 0, 0, 0] i ≠ bit damaged i →
        3 ≤ i ∧ i < 3 + 32) i hend hi
    · have hlast : 5 ≤ i / 8 := by omega
      simp [bit, damaged, hlast] at hi
  let session : Session :=
    { Session.new with
      id := ⟨List.replicate 16 1, rfl⟩, symmetricKey := some ⟨List.replicate 16 2, rfl⟩ }
  let c : Client (List Stream) :=
    { new [heedful [.data (reportOf (ofWord32 (crc32 damaged)))], heedful []] with session }
  have hrun : (Action.ended (uploadOnce inTurn ⟨"a"⟩ [0, 0, 0, 0, 0] c)).any (fun p =>
      (trips p.2.journal).any fun trip => decide (trip.outcome.toOption =
        some (some (.fileDelivered .unassigned 0 .empty (crc32 damaged))))) = true := by
    decide +kernel
  obtain ⟨⟨r, d⟩, hd, hr⟩ := (Option.any_eq_true _ _).mp hrun
  obtain ⟨trip, hmem, htrip⟩ := List.any_eq_true.mp hr
  have hreports : trip.Reports .empty 0 (crc32 damaged) := by
    have hreported := of_decide_eq_true htrip
    cases houtcome : trip.outcome with
    | error stop =>
      rw [houtcome] at hreported
      cases hreported
    | ok answer =>
      rw [houtcome] at hreported
      cases hreported
      exact ⟨.unassigned, houtcome⟩
  obtain ⟨hdiffers, hflips, hupload⟩ := damage_is_detected [0, 0, 0, 0, 0]
  have hrefused : ∃ e, r = .error e :=
    hupload inTurn ⟨"a"⟩ .empty 0 damaged c d r (trips d.journal) hburst hd rfl
      ⟨trip, hmem, hreports⟩
  exact ⟨damaged, c, d, r, trip, hburst, hdiffers damaged hburst, hflips 17 (by decide), hd, hmem,
    hreports, hrefused⟩

end Courier.Client
