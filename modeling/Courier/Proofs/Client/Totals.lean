import Courier.Proofs.Client.Runs
import Courier.Proofs.Client.Takings
import Courier.Proofs.Client.Uploads
import Mathlib.Algebra.BigOperators.Group.List.Basic
import Mathlib.Algebra.GroupWithZero.Nat

namespace Courier

namespace Step

/-- A key exchange or a reconnection that succeeded. -/
def installsKey : Step → Bool
  | (.exchangeKeys, .ok _) | (.reconnect, .ok _) => true
  | _ => false

/-- A transfer that succeeded. -/
def delivers : Step → Bool
  | (.transfer _, .ok _) => true
  | _ => false

/-- A transfer that was given up. -/
def abandons : Step → Bool
  | (.transfer _, .error (.transferAbandoned _)) => true
  | _ => false

/-- What is counted of an operation besides its round trips. -/
def gain (s : Step) : Metrics :=
  { Metrics.zero with
    keysInstalled := .ofNat s.installsKey.toNat
    transfersCompleted := .ofNat s.delivers.toNat
    transfersAbandoned := .ofNat s.abandons.toNat }

/-- Requests without whose answers the operation would not have come to this. -/
def needs : Step → List RequestCode
  | (.exchangeKeys, .ok _) => [.sendPublicKey]
  | (.reconnect, .ok _) => [.reconnect]
  | (.transfer _, .ok _) => [.sendFile, .validCrc]
  | _ => []

theorem keys_needed (s : Step) :
    s.installsKey.toNat =
      (decide (.sendPublicKey ∈ s.needs)).toNat + (decide (.reconnect ∈ s.needs)).toNat := by
  obtain ⟨op, r⟩ := s
  cases op <;> cases r <;> rfl

theorem uploads_needed (s : Step) : s.delivers = decide (.sendFile ∈ s.needs) := by
  obtain ⟨op, r⟩ := s
  cases op <;> cases r <;> rfl

theorem verdicts_needed (s : Step) : s.delivers = decide (.validCrc ∈ s.needs) := by
  obtain ⟨op, r⟩ := s
  cases op <;> cases r <;> rfl

end Step

namespace RoundTrip

/-- The size of the request without padding, if all of it went out. -/
def sentSize? (trip : RoundTrip) : Option Nat :=
  trip.sent?.map fun _ => 23 + trip.request.payloadSize

/-- The size of the response without padding, if its header was accepted and all of it came in. -/
def receivedSize? (trip : RoundTrip) : Option Nat :=
  trip.accepted?.map fun h => 7 + h.payloadSize.toNat

/-- What a round trip costs, counter by counter. -/
theorem cost_eq (trip : RoundTrip) :
    trip.cost = { Metrics.zero with
      roundTripsTotal := 1
      roundTripsFailed := .ofNat trip.isFailed.toNat
      framesSent := .ofNat (Frame.count (trip.sentSize?.getD 0))
      framesReceived := .ofNat (Frame.count (trip.receivedSize?.getD 0))
      bytesSent := .ofNat (trip.sentSize?.getD 0)
      bytesReceived := .ofNat (trip.receivedSize?.getD 0)
      uploadAttempts := .ofNat trip.isUpload.toNat } := by
  unfold cost fare attempt traffic sentSize? receivedSize?
  cases trip.isFailed <;> cases trip.isUpload <;> cases trip.sent? <;> cases trip.accepted? <;>
    simp [Metrics.add_def, Metrics.zero_def, Metrics.zero, Metrics.roundTripStarted,
      Metrics.roundTripFailed, Metrics.uploadAttempt, Metrics.ofSent, Metrics.ofAccepted,
      Metrics.messageSent, Metrics.messageReceived, Frame.count, Frame.size]

/-- A round trip is an upload, or the answered request for a key or for an upload's confirmation,
but not two of these. -/
theorem exclusive (trip : RoundTrip) :
    (trip.answered .sendPublicKey).toNat + (trip.answered .reconnect).toNat +
      (trip.answered .validCrc).toNat + trip.isUpload.toNat ≤ 1 := by
  obtain ⟨request, opened, left, outcome⟩ := trip
  rcases outcome with stop | _ | p
  · simp [answered, Bool.toNat_le]
  · simp [answered, Bool.toNat_le]
  · cases request with
    | verdict verdict id file =>
      cases verdict <;> simp [answered, isUpload, Request.code, Verdict.code]
    | _ => simp [answered, isUpload, Request.code]

/-- No round trip that failed was answered. -/
theorem exclusive_failed (trip : RoundTrip) :
    (trip.answered .sendPublicKey).toNat + (trip.answered .reconnect).toNat +
      (trip.answered .sendFile).toNat + (trip.answered .validCrc).toNat + trip.isFailed.toNat ≤
        1 := by
  obtain ⟨request, opened, left, outcome⟩ := trip
  rcases outcome with stop | _ | p
  · simp [answered, Bool.toNat_le]
  · simp [answered, isFailed]
  · cases request with
    | verdict verdict id file =>
      cases verdict <;> simp [answered, isFailed, Request.code, Verdict.code]
    | _ => simp [answered, isFailed, Request.code]

end RoundTrip

namespace Client

variable {ω : Type} {env : Environment ω} {c d : Client ω} {world : ω} {history : List Step}

/-- What an operation gains and the requests it needs answered depend on its result alone. -/
theorem OperationCourse.balances {s : Session} {op : Operation} {deeds : List Deed}
    {retries : UInt32} {r : Except TransferError Reply}
    (h : OperationCourse retries s op deeds (r.mapError .failed)) :
    Deed.Balances deeds (Step.gain (op, r)) := by
  generalize hz : (r.mapError .failed : Except Stop _) = z at h
  cases h with
  | restore h | register h | uploadOnce h | giveUp h => cases r <;> exact h.balances
  | exchangeKeys h | reconnect h =>
    obtain ⟨y, rfl, rfl⟩ := Action.eq_map_of_mapError_failed hz
    cases y <;> exact h.balances
  | transfer h =>
    obtain ⟨y, rfl, rfl⟩ := Action.eq_map_of_mapError_failed hz
    have hbalances := h.balances
    rcases y with e | delivery
    · cases e <;> exact hbalances
    · exact hbalances

theorem OperationCourse.answered {s : Session} {op : Operation} {deeds : List Deed}
    {retries : UInt32} {r : Except TransferError Reply}
    (h : OperationCourse retries s op deeds (r.mapError .failed)) :
    ∀ code ∈ Step.needs (op, r), ∃ t ∈ trips (Deed.acts deeds), t.answered code := by
  intro code hcode
  generalize hz : (r.mapError .failed : Except Stop _) = z at h
  cases r with
  | error e => exact absurd hcode (by cases h <;> exact List.not_mem_nil)
  | ok reply =>
    cases h with
    | restore | register | uploadOnce | giveUp => exact absurd hcode List.not_mem_nil
    | @exchangeKeys deeds y h =>
      cases y <;> cases hz
      rw [List.mem_singleton.mp hcode]
      exact h.answered
    | @reconnect deeds y h =>
      cases y <;> cases hz
      rw [List.mem_singleton.mp hcode]
      exact h.answered
    | @transfer path deeds y h =>
      cases y <;> cases hz
      exact h.answered code hcode

theorem perform_books {op : Operation} {r : Except TransferError Reply}
    (h : (perform env op).Returns c r d) :
    ∃ ts, Books env c ts (Step.gain (op, r)) d ∧
      ∀ code ∈ Step.needs (op, r), ∃ t ∈ ts, t.answered code := by
  obtain ⟨deeds, hcourse, hd⟩ := (perform_follows _ _).of_returns h
  exact ⟨_, hd.books hcourse.balances, hcourse.answered⟩

/-- The books of a run. For each request that its operations need answered a round trip of their own
has been answered. -/
theorem runs_books (h : Runs env c history d) :
    ∃ ts, Books env c ts (history.map Step.gain).sum d ∧
      ∀ code, history.countP (fun s => decide (code ∈ s.needs)) ≤
        ts.countP (RoundTrip.answered code) := by
  induction h with
  | nil => exact ⟨[], .nil _, fun _ => Nat.le_refl _⟩
  | @cons _ _ _ op r _ hop _ ih =>
    -- The answers an operation needs are among its own round trips, so none is counted twice.
    obtain ⟨ts, hts, hanswered⟩ := perform_books hop
    obtain ⟨us, hus, hle⟩ := ih
    refine ⟨ts ++ us, hts.append hus, fun code => ?_⟩
    rw [List.countP_cons, List.countP_append]
    have hfirst : (if decide (code ∈ Step.needs (op, r)) = true then 1 else 0) ≤
        ts.countP (RoundTrip.answered code) := by
      split
      · rename_i hcode
        obtain ⟨t, ht, hcodet⟩ := hanswered code (of_decide_eq_true hcode)
        exact List.countP_pos_iff.mpr ⟨t, ht, hcodet⟩
      · exact Nat.zero_le _
    have hrest := hle code
    omega

/-- How often it holds, as a sum. -/
theorem countP_eq_sum {α : Type} (p : α → Bool) (as : List α) :
    as.countP p = (as.map fun a => (p a).toNat).sum := by
  induction as with
  | nil => rfl
  | cons a as ih => cases hp : p a <;> simp [hp, ih, Nat.add_comm]

/-- A sum over what is there, as a sum over all. -/
theorem sum_filterMap {α : Type} {g : Nat → Nat} (hg : g 0 = 0) (f : α → Option Nat)
    (as : List α) : ((as.filterMap f).map g).sum = (as.map fun a => g ((f a).getD 0)).sum := by
  induction as with
  | nil => rfl
  | cons a as ih => cases hf : f a <;> simp [hf, ih, hg]

/-- The counters of a client after operations with these results, begun in this world. -/
structure Counted (env : Environment ω) (world : ω) (history : List Step) (d : Client ω) :
    Prop where
  /-- The round trips are conversations on streams that were asked for, each with its own. -/
  held : ∀ trip ∈ trips d.journal, trip.Held env
  dials_eq : ∀ dials, env.CountsDials dials →
    dials d.world = dials world + (trips d.journal).length
  roundTripsTotal : d.metrics.roundTripsTotal = .ofNat (trips d.journal).length
  roundTripsFailed : d.metrics.roundTripsFailed = .ofNat ((trips d.journal).countP RoundTrip.isFailed)
  framesSent : d.metrics.framesSent =
    .ofNat (((trips d.journal).filterMap RoundTrip.sentSize?).map Frame.count).sum
  framesReceived : d.metrics.framesReceived =
    .ofNat (((trips d.journal).filterMap RoundTrip.receivedSize?).map Frame.count).sum
  bytesSent : d.metrics.bytesSent = .ofNat ((trips d.journal).filterMap RoundTrip.sentSize?).sum
  bytesReceived : d.metrics.bytesReceived =
    .ofNat ((trips d.journal).filterMap RoundTrip.receivedSize?).sum
  keysInstalled : d.metrics.keysInstalled = .ofNat (history.countP Step.installsKey)
  uploadAttempts : d.metrics.uploadAttempts = .ofNat ((trips d.journal).countP RoundTrip.isUpload)
  transfersCompleted : d.metrics.transfersCompleted = .ofNat (history.countP Step.delivers)
  transfersAbandoned : d.metrics.transfersAbandoned = .ofNat (history.countP Step.abandons)
  failed_le : (trips d.journal).length < 2 ^ 64 →
    d.metrics.roundTripsFailed.toNat ≤ d.metrics.roundTripsTotal.toNat
  uploads_le : (trips d.journal).length < 2 ^ 64 →
    d.metrics.keysInstalled.toNat + d.metrics.uploadAttempts.toNat +
      d.metrics.transfersCompleted.toNat ≤ d.metrics.roundTripsTotal.toNat
  successes_le : (trips d.journal).length < 2 ^ 64 →
    d.metrics.keysInstalled.toNat + 2 * d.metrics.transfersCompleted.toNat +
      d.metrics.roundTripsFailed.toNat ≤ d.metrics.roundTripsTotal.toNat

section Counter

variable (counter : Metrics → UInt64) (hz : counter 0 = 0)
  (hadd : ∀ m n, counter (m + n) = counter m + counter n)
  (hsettled : ∀ m : Metrics, counter m.settled = counter m) {ts : List RoundTrip} {m : Metrics}
  (hm : m.settled = (ts.map RoundTrip.cost).sum + (history.map Step.gain).sum)

include hz hadd hsettled hm

/-- A counter is the sum of what the round trips cost and what the operations gain of it. -/
theorem counter_eq {n : RoundTrip → Nat} {k : Step → Nat}
    (hn : ∀ t, counter t.cost = .ofNat (n t)) (hk : ∀ s, counter s.gain = .ofNat (k s)) :
    counter m = .ofNat ((ts.map n).sum + (history.map k).sum) := by
  rw [← hsettled, hm, hadd, Metrics.counter_sum hz hadd hn, Metrics.counter_sum hz hadd hk,
    UInt64.ofNat_add]

/-- A counter that only round trips move. -/
theorem counter_of_trips {n : RoundTrip → Nat} (hn : ∀ t, counter t.cost = .ofNat (n t))
    (hk : ∀ s : Step, counter s.gain = 0) : counter m = .ofNat (ts.map n).sum := by
  rw [counter_eq counter hz hadd hsettled hm hn hk]
  simp [List.map_const']

/-- A counter that only the results of operations move. -/
theorem counter_of_steps {p : Step → Bool} (hn : ∀ t : RoundTrip, counter t.cost = 0)
    (hk : ∀ s, counter s.gain = .ofNat (p s).toNat) : counter m = .ofNat (history.countP p) := by
  rw [counter_eq counter hz hadd hsettled hm hn hk, countP_eq_sum]
  simp [List.map_const']

end Counter

theorem sum_le_length {α : Type} {n : α → Nat} (hn : ∀ a, n a ≤ 1) (as : List α) :
    (as.map n).sum ≤ as.length := by
  induction as with
  | nil => exact Nat.le_refl _
  | cons a as ih =>
    have ha := hn a
    rw [List.map_cons, List.sum_cons, List.length_cons]
    omega

theorem countP_installsKey (history : List Step) : history.countP Step.installsKey =
    history.countP (fun s => decide (.sendPublicKey ∈ s.needs)) +
      history.countP (fun s => decide (.reconnect ∈ s.needs)) := by
  simp only [countP_eq_sum, Step.keys_needed, List.sum_map_add]

/-- There are round trips enough for all uploads and for whatever else succeeded. -/
theorem uploads_le_length {ts : List RoundTrip}
    (hle : ∀ code, history.countP (fun s => decide (code ∈ s.needs)) ≤
      ts.countP (RoundTrip.answered code)) :
    history.countP Step.installsKey + ts.countP RoundTrip.isUpload + history.countP Step.delivers ≤
      ts.length := by
  have hkeys := countP_installsKey history
  have hdelivers : history.countP Step.delivers =
      history.countP (fun s => decide (.validCrc ∈ s.needs)) :=
    congrArg (history.countP ·) (funext Step.verdicts_needed)
  have hlength := sum_le_length RoundTrip.exclusive ts
  simp only [List.sum_map_add, ← countP_eq_sum] at hlength
  have hpublicKey := hle .sendPublicKey
  have hreconnect := hle .reconnect
  have hvalid := hle .validCrc
  omega

/-- There are round trips enough for all failures and for whatever succeeded. -/
theorem failed_le_length {ts : List RoundTrip}
    (hle : ∀ code, history.countP (fun s => decide (code ∈ s.needs)) ≤
      ts.countP (RoundTrip.answered code)) :
    history.countP Step.installsKey + 2 * history.countP Step.delivers +
      ts.countP RoundTrip.isFailed ≤ ts.length := by
  have hkeys := countP_installsKey history
  have hdelivers : history.countP Step.delivers =
      history.countP (fun s => decide (.validCrc ∈ s.needs)) :=
    congrArg (history.countP ·) (funext Step.verdicts_needed)
  have huploads : history.countP Step.delivers =
      history.countP (fun s => decide (.sendFile ∈ s.needs)) :=
    congrArg (history.countP ·) (funext Step.uploads_needed)
  have hlength := sum_le_length RoundTrip.exclusive_failed ts
  simp only [List.sum_map_add, ← countP_eq_sum] at hlength
  have hpublicKey := hle .sendPublicKey
  have hreconnect := hle .reconnect
  have hsend := hle .sendFile
  have hvalid := hle .validCrc
  omega

/-- However a run of operations goes, each counter says how often the thing happened that it is
named for. -/
theorem runs_counted (h : Runs env (.new world) history d) : Counted env world history d := by
  obtain ⟨ts, hbooks, hle⟩ := runs_books h
  have hm : d.metrics.settled = (ts.map RoundTrip.cost).sum + (history.map Step.gain).sum := by
    rw [hbooks.metrics_eq]
    exact congrArg (· + _) (Metrics.zero_add _)
  obtain rfl : trips d.journal = ts := hbooks.trips_eq
  have htotal : d.metrics.roundTripsTotal = .ofNat (trips d.journal).length := by
    have hn := counter_of_trips (n := fun _ => 1) (·.roundTripsTotal) rfl (fun _ _ => rfl)
      (fun _ => rfl) hm (fun t => congrArg _ t.cost_eq) fun _ => rfl
    simpa [List.map_const'] using hn
  have hfailed : d.metrics.roundTripsFailed =
      .ofNat ((trips d.journal).countP RoundTrip.isFailed) := by
    rw [countP_eq_sum]
    exact counter_of_trips (·.roundTripsFailed) rfl (fun _ _ => rfl) (fun _ => rfl) hm
      (fun t => congrArg _ t.cost_eq) fun _ => rfl
  have huploads : d.metrics.uploadAttempts = .ofNat ((trips d.journal).countP RoundTrip.isUpload) := by
    rw [countP_eq_sum]
    exact counter_of_trips (·.uploadAttempts) rfl (fun _ _ => rfl) (fun _ => rfl) hm
      (fun t => congrArg _ t.cost_eq) fun _ => rfl
  have hkeys : d.metrics.keysInstalled = .ofNat (history.countP Step.installsKey) :=
    counter_of_steps (·.keysInstalled) rfl (fun _ _ => rfl) (fun _ => rfl) hm
      (fun t => congrArg _ t.cost_eq) fun _ => rfl
  have hdelivered : d.metrics.transfersCompleted = .ofNat (history.countP Step.delivers) :=
    counter_of_steps (·.transfersCompleted) rfl (fun _ _ => rfl) (fun _ => rfl) hm
      (fun t => congrArg _ t.cost_eq) fun _ => rfl
  have hbytes (size? : RoundTrip → Option Nat) :
      ((trips d.journal).filterMap size?).sum =
        ((trips d.journal).map fun t => (size? t).getD 0).sum := by
    have hid := sum_filterMap (g := id) rfl size? (trips d.journal)
    rwa [List.map_id] at hid
  refine ⟨hbooks.held, hbooks.dials_eq, htotal, hfailed, ?_, ?_, ?_, ?_, hkeys, huploads,
    hdelivered, ?_, ?_, ?_, ?_⟩
  · rw [sum_filterMap rfl]
    exact counter_of_trips (·.framesSent) rfl (fun _ _ => rfl) (fun _ => rfl) hm
      (fun t => congrArg _ t.cost_eq) fun _ => rfl
  · rw [sum_filterMap rfl]
    exact counter_of_trips (·.framesReceived) rfl (fun _ _ => rfl) (fun _ => rfl) hm
      (fun t => congrArg _ t.cost_eq) fun _ => rfl
  · rw [hbytes]
    exact counter_of_trips (·.bytesSent) rfl (fun _ _ => rfl) (fun _ => rfl) hm
      (fun t => congrArg _ t.cost_eq) fun _ => rfl
  · rw [hbytes]
    exact counter_of_trips (·.bytesReceived) rfl (fun _ _ => rfl) (fun _ => rfl) hm
      (fun t => congrArg _ t.cost_eq) fun _ => rfl
  · exact counter_of_steps (·.transfersAbandoned) rfl (fun _ _ => rfl) (fun _ => rfl) hm
      (fun t => congrArg _ t.cost_eq) fun _ => rfl
  all_goals
    intro hlength
    simp only [htotal, hfailed, hkeys, huploads, hdelivered, UInt64.toNat_ofNat']
    rw [Nat.mod_eq_of_lt hlength]
  · exact Nat.le_trans (Nat.mod_le _ _) List.countP_le_length
  · have hbound := uploads_le_length hle
    omega
  · have hbound := failed_le_length hle
    omega

/-- A client registers, gets a key, and delivers an empty file on its second upload, for which six
connections are asked for. -/
theorem runs_counted_delivered :
    ∃ (world : List Stream) (history : List Step) (d : Client (List Stream × Nat)),
      Runs inTurn.dialling (.new (world, 0)) history d ∧
      Counted inTurn.dialling (world, 0) history d ∧
      history.countP Step.installsKey = 1 ∧ history.countP Step.delivers = 1 ∧
      d.world.2 = 6 ∧ d.metrics = ⟨6, 0, 6, 5, 1836, 657, 1, 2, 1, 1, 0⟩ := by
  let world : List Stream :=
    [heedful [.data ([3, 52, 8, 16, 0, 0, 0] ++ List.replicate 16 7)],
      heedful [.data ([3, 54, 8, 32, 0, 0, 0] ++ List.replicate 32 7)],
      heedful [.data (reportOf [1, 0, 0, 0])], heedful [],
      heedful [.data (reportOf [0, 0, 0, 0])], heedful [.data acknowledgement]]
  have hrun : (Action.ended (perform inTurn.dialling (.register "ada") (.new (world, 0)))).any
      (fun p₁ => (Action.ended (perform inTurn.dialling .exchangeKeys p₁.2)).any fun p₂ =>
        (Action.ended (perform inTurn.dialling (.transfer [0x61]) p₂.2)).any fun p₃ =>
          p₂.1.toBool && p₃.1.toBool && decide ((trips p₃.2.journal).length = 6) &&
            decide (p₃.2.metrics = ⟨6, 0, 6, 5, 1836, 657, 1, 2, 1, 1, 0⟩)) = true := by
    decide +kernel
  obtain ⟨⟨r₁, c₁⟩, h₁, hrun⟩ := (Option.any_eq_true _ _).mp hrun
  obtain ⟨⟨r₂, c₂⟩, h₂, hrun⟩ := (Option.any_eq_true _ _).mp hrun
  obtain ⟨⟨r₃, c₃⟩, h₃, hrun⟩ := (Option.any_eq_true _ _).mp hrun
  simp only [Bool.and_eq_true, decide_eq_true_eq] at hrun
  obtain ⟨⟨⟨hr₂, hr₃⟩, htrips⟩, hmetrics⟩ := hrun
  have hruns : Runs inTurn.dialling (.new (world, 0))
      [(.register "ada", r₁), (.exchangeKeys, r₂), (.transfer [0x61], r₃)] c₃ :=
    .cons h₁ (.cons h₂ (.cons h₃ .nil))
  have hcounted := runs_counted hruns
  have hworld := hcounted.dials_eq Prod.snd inTurn.dialling_countsDials
  rw [htrips] at hworld
  refine ⟨world, _, c₃, hruns, hcounted, ?_, ?_, hworld, hmetrics⟩
  · cases r₂ with
    | ok reply => rfl
    | error e => cases hr₂
  · cases r₃ with
    | ok reply => rfl
    | error e => cases hr₃

end Client

end Courier
