import Courier.Proofs.Client.Deeds
import Courier.Proofs.Client.Traffic

namespace Courier

namespace Metrics

/-- The counters without that of differing checksums. -/
def settled (m : Metrics) : Metrics :=
  { m with crcMismatches := 0 }

theorem settled_add (m n : Metrics) : (m + n).settled = m.settled + n.settled :=
  rfl

@[simp] theorem settled_zero : (0 : Metrics).settled = 0 :=
  rfl

theorem settled_of_crcMismatches {m : Metrics} (h : m.crcMismatches = 0) : m.settled = m := by
  unfold settled
  rw [← h]

end Metrics

namespace RoundTrip

/-- It ended in a failure. -/
def isFailed (trip : RoundTrip) : Bool :=
  match trip.outcome with
  | .error (.failed _) => true
  | _ => false

def isUpload (trip : RoundTrip) : Bool :=
  match trip.request with
  | .sendFile _ _ _ => true
  | _ => false

/-- A request with this code was answered. -/
def answered (code : RequestCode) (trip : RoundTrip) : Bool :=
  match trip.outcome with
  | .ok (some _) => decide (trip.request.code = code)
  | _ => false

theorem answered_of_outcome {trip : RoundTrip} {request : Request} {p : ResponsePayload}
    (hr : trip.request = request) (ho : trip.outcome = .ok (some p)) :
    trip.answered request.code := by
  unfold answered
  rw [ho, hr]
  exact decide_eq_true rfl

/-- What is counted of a round trip from when a connection is asked for. -/
def fare (trip : RoundTrip) : Metrics :=
  (0 : Metrics).roundTripStarted + (if trip.isFailed then (0 : Metrics).roundTripFailed else 0) +
    trip.traffic

/-- What is counted before a round trip, as an attempt when it is an upload. -/
def attempt (trip : RoundTrip) : Metrics :=
  if trip.isUpload then (0 : Metrics).uploadAttempt else 0

/-- What is counted of a round trip, with the attempt when it is an upload. -/
def cost (trip : RoundTrip) : Metrics :=
  trip.fare + trip.attempt

theorem attempt_of_code_ne {trip : RoundTrip} (h : trip.request.code ≠ .sendFile) :
    trip.attempt = 0 := by
  unfold attempt isUpload
  split
  · rename_i hrequest
    rw [hrequest] at h
    exact absurd rfl h
  · rfl

theorem attempt_of_sendFile {trip : RoundTrip} {id : ClientId} {file : Name} {content : Bytes}
    (h : trip.request = .sendFile id file content) : trip.attempt = (0 : Metrics).uploadAttempt := by
  unfold attempt isUpload
  rw [h]
  rfl

theorem fare_of_failed {trip : RoundTrip} (h : trip.isFailed = true) :
    trip.fare = (0 : Metrics).roundTripStarted + (0 : Metrics).roundTripFailed + trip.traffic := by
  rw [fare, if_pos h]

theorem fare_of_not_failed {trip : RoundTrip} (h : trip.isFailed = false) :
    trip.fare = (0 : Metrics).roundTripStarted + trip.traffic := by
  rw [fare, h]
  rfl

theorem crcMismatches_traffic (trip : RoundTrip) : trip.traffic.crcMismatches = 0 := by
  unfold traffic
  cases trip.sent? <;> cases trip.accepted? <;> rfl

theorem crcMismatches_fare (trip : RoundTrip) : trip.fare.crcMismatches = 0 := by
  have h : trip.fare.crcMismatches =
      0 + (if trip.isFailed then (0 : Metrics).roundTripFailed else 0).crcMismatches +
        trip.traffic.crcMismatches := rfl
  rw [h, crcMismatches_traffic]
  cases trip.isFailed <;> rfl

end RoundTrip

/-- The number `dials` in the world goes up by one whenever a connection is asked for, and nothing else
moves it. -/
structure Environment.CountsDials {ω : Type} (env : Environment ω) (dials : ω → Nat) : Prop where
  connect : ∀ w, dials (env.connect w).2 = dials w + 1
  generateKeys : ∀ w, dials (env.generateKeys w).2 = dials w
  derivePublicKey : ∀ key w, dials (env.derivePublicKey key w).2 = dials w
  unwrapKey : ∀ key wrapped w, dials (env.unwrapKey key wrapped w).2 = dials w
  encrypt : ∀ key content w, dials (env.encrypt key content w).2 = dials w
  loadIdentity : ∀ w, dials (env.loadIdentity w).2 = dials w
  storeIdentity : ∀ identity w, dials (env.storeIdentity identity w).2 = dials w
  loadFile : ∀ path w, dials (env.loadFile path w).2 = dials w

/-- The same surroundings with a count of the connections asked for. -/
def Environment.dialling {ω : Type} (env : Environment ω) : Environment (ω × Nat) where
  connect w := ((env.connect w.1).1, (env.connect w.1).2, w.2 + 1)
  generateKeys w := ((env.generateKeys w.1).1, (env.generateKeys w.1).2, w.2)
  derivePublicKey key w := ((env.derivePublicKey key w.1).1, (env.derivePublicKey key w.1).2, w.2)
  unwrapKey key wrapped w :=
    ((env.unwrapKey key wrapped w.1).1, (env.unwrapKey key wrapped w.1).2, w.2)
  encrypt key content w := ((env.encrypt key content w.1).1, (env.encrypt key content w.1).2, w.2)
  loadIdentity w := ((env.loadIdentity w.1).1, (env.loadIdentity w.1).2, w.2)
  storeIdentity identity w :=
    ((env.storeIdentity identity w.1).1, (env.storeIdentity identity w.1).2, w.2)
  loadFile path w := ((env.loadFile path w.1).1, (env.loadFile path w.1).2, w.2)
  timeouts := env.timeouts
  maxRetries := env.maxRetries

theorem Environment.dialling_countsDials {ω : Type} (env : Environment ω) :
    env.dialling.CountsDials Prod.snd := by
  constructor <;> intros <;> rfl

theorem RoundTrip.settled_fares (ts : List RoundTrip) :
    (ts.map fare).sum.settled = (ts.map fare).sum := by
  induction ts with
  | nil => rfl
  | cons trip ts ih =>
    have hfare : trip.fare.settled = trip.fare :=
      Metrics.settled_of_crcMismatches trip.crcMismatches_fare
    rw [List.map_cons, List.sum_cons, Metrics.settled_add, hfare, ih]

theorem RoundTrip.sum_cost (ts : List RoundTrip) :
    (ts.map cost).sum = (ts.map fare).sum + (ts.map attempt).sum := by
  induction ts with
  | nil => rfl
  | cons trip ts ih =>
    simp only [List.map_cons, List.sum_cons, ih, cost]
    ac_rfl

/-- Connections are asked for in round trips only, once in each. -/
theorem Act.Occurs.dials_eq {ω : Type} {env : Environment ω} {dials : ω → Nat}
    (hdials : env.CountsDials dials) {w w' : ω} {act : Act} (h : act.Occurs env w w') :
    dials w' = dials w + (Client.trips [act]).length := by
  have hstill {α : Type} {answer : α × ω} {r : α} (hsame : dials answer.2 = dials w)
      (hanswer : answer = (r, w')) : dials w' = dials w := by
    rw [hanswer] at hsame
    exact hsame
  cases act with
  | roundTrip trip =>
    have hdial := hdials.connect w
    cases h with
    | unconnected hconnect | connected hconnect =>
      rw [hconnect] at hdial
      exact hdial
  | generatedKeys result => exact hstill (hdials.generateKeys w) h
  | derivedPublicKey key result => exact hstill (hdials.derivePublicKey key w) h
  | unwrappedKey key wrapped result => exact hstill (hdials.unwrapKey key wrapped w) h
  | encrypted key content result => exact hstill (hdials.encrypt key content w) h
  | loadedIdentity result => exact hstill (hdials.loadIdentity w) h
  | storedIdentity identity result => exact hstill (hdials.storeIdentity identity w) h
  | loadedFile path result => exact hstill (hdials.loadFile path w) h

theorem History.dials_eq {ω : Type} {env : Environment ω} {dials : ω → Nat}
    (hdials : env.CountsDials dials) {w w' : ω} {acts : List Act} (h : History env w acts w') :
    dials w' = dials w + (Client.trips acts).length := by
  induction h with
  | nil => rfl
  | cons hact _ ih =>
    rw [ih, hact.dials_eq hdials, Nat.add_assoc, ← List.length_append, ← Client.trips_append]
    rfl

namespace Deed

open Client

/-- What is counted besides round trips is an attempt for each upload, and the gain. -/
def Balances (deeds : List Deed) (gain : Metrics) : Prop :=
  (gains deeds).settled = ((trips (acts deeds)).map RoundTrip.attempt).sum + gain

theorem Balances.append {ds es : List Deed} {g g' : Metrics} (h : Balances ds g)
    (h' : Balances es g') : Balances (ds ++ es) (g + g') := by
  unfold Balances at *
  rw [gains_append, Metrics.settled_add, h, h', acts_append, trips_append, List.map_append,
    List.sum_append]
  ac_rfl

end Deed

namespace Client

variable {ω α : Type} {env : Environment ω} {c m d : Client ω} {trip : RoundTrip}
  {deeds : List Deed}

/-- A round trip that is over is counted. -/
theorem Converses.metrics_eq (h : Converses env c trip d) (hended : trip.outcome ≠ .error .hung) :
    d.metrics = c.metrics + trip.fare := by
  cases h with
  | unconnected hconnect =>
    change c.metrics.roundTripStarted.roundTripFailed = _
    rw [RoundTrip.fare_of_failed rfl, Metrics.roundTripFailed_eq, Metrics.roundTripStarted_eq,
      Metrics.add_assoc]
    rfl
  | @connected request stream w left y hconnect htalk =>
    obtain ⟨r, rfl, hr⟩ := Action.returns_of_leads htalk hended
    let trip : RoundTrip := ⟨request, .ok (opening env c stream), some left, r.mapError .failed⟩
    have hmetered : left.metrics = some (c.metrics.roundTripStarted + trip.traffic) :=
      RoundTrip.talk_metered rfl hr (r.mapError .failed)
    unfold disconnected conclude absorb
    rw [hmetered]
    cases r with
    | ok a =>
      change c.metrics.roundTripStarted + trip.traffic = _
      rw [RoundTrip.fare_of_not_failed rfl, Metrics.roundTripStarted_eq]
      ac_rfl
    | error e =>
      change (c.metrics.roundTripStarted + trip.traffic).roundTripFailed = _
      rw [RoundTrip.fare_of_failed rfl, Metrics.roundTripFailed_eq, Metrics.roundTripStarted_eq]
      ac_rfl

/-- What is counted from `c` to `d` does not depend on where the counters stood. -/
theorem Does.metrics_eq (h : Does env c deeds d) :
    d.metrics = c.metrics + (((trips (Deed.acts deeds)).map RoundTrip.fare).sum +
      Deed.gains deeds) := by
  induction h with
  | nil => exact (Metrics.add_zero _).symm
  | cons hfirst _ ih =>
    rw [ih]
    cases hfirst with
    | @asked act w hact =>
      rw [Deed.gains_noted]
      cases act with
      | roundTrip trip => cases hact
      | _ => rfl
    | @conversed trip m hconverses hended =>
      rw [hconverses.metrics_eq hended, Deed.acts_noted, Deed.gains_noted, trips_cons, List.map_cons,
        List.sum_cons]
      ac_rfl
    | told => rw [Deed.gains_told, Deed.acts_told]
    | changed => rw [Deed.gains_changed, Deed.acts_changed]
    | @counted gain =>
      rw [Deed.gains_counted, Deed.acts_counted]
      simp only
      ac_rfl

/-- From `c` to `d` the round trips `ts` are held, and counted, and `gain` is counted besides. -/
structure Books (env : Environment ω) (c : Client ω) (ts : List RoundTrip) (gain : Metrics)
    (d : Client ω) : Prop where
  trips_eq : trips d.journal = trips c.journal ++ ts
  metrics_eq : d.metrics.settled = c.metrics.settled + (ts.map RoundTrip.cost).sum + gain
  held : ∀ t ∈ ts, t.Held env
  dials_eq : ∀ dials, env.CountsDials dials → dials d.world = dials c.world + ts.length

theorem Books.nil (c : Client ω) : Books env c [] 0 c := by
  refine ⟨(List.append_nil _).symm, ?_, by simp, fun _ _ => rfl⟩
  rw [List.map_nil, List.sum_nil, Metrics.add_zero, Metrics.add_zero]

theorem Books.append {ts us : List RoundTrip} {g g' : Metrics} (h : Books env c ts g m)
    (h' : Books env m us g' d) : Books env c (ts ++ us) (g + g') d := by
  refine ⟨?_, ?_, List.forall_mem_append.mpr ⟨h.held, h'.held⟩, ?_⟩
  · rw [h'.trips_eq, h.trips_eq, List.append_assoc]
  · rw [h'.metrics_eq, h.metrics_eq, List.map_append, List.sum_append]
    ac_rfl
  · intro dials hdials
    rw [h'.dials_eq dials hdials, h.dials_eq dials hdials, List.length_append, Nat.add_assoc]

/-- Where what is counted balances, the books are right. -/
theorem Does.books (h : Does env c deeds d) {gain : Metrics} (hb : Deed.Balances deeds gain) :
    Books env c (trips (Deed.acts deeds)) gain d := by
  refine ⟨h.trips_eq, ?_, h.held, fun _ hdials => h.notes.history.dials_eq hdials⟩
  rw [h.metrics_eq, Metrics.settled_add, Metrics.settled_add, RoundTrip.settled_fares, hb,
    RoundTrip.sum_cost]
  ac_rfl

end Client

end Courier
