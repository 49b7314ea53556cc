import Courier.Proofs.Client.Runs
import Courier.Proofs.Wire.Name

namespace Courier.Client

open Courier.Action

variable {ω : Type} {env : Environment ω} {c d : Client ω}

section Registering

/-- Of what happens since the world `w`, an identity is stored at the very end, which leaves the world
`last`: under the name and the id that the server registered, and with the private key that the key
provider generated since. -/
def StoresLast (env : Environment ω) (w : ω) (name : Name) (acts : List Act) (last : ω) : Prop :=
  ∀ before identity result after, acts = before ++ .storedIdentity identity result :: after →
    after = [] ∧ identity.username = name ∧ ∃ trip key w₁ w₂,
      before = [.roundTrip trip, .generatedKeys (.ok (key, identity.privateKey))] ∧
        trip.Occurs env w w₁ ∧ trip.request = .registration name ∧
        trip.outcome = .ok (some (.registrationSuccess identity.id)) ∧
        env.generateKeys w₁ = (.ok (key, identity.privateKey), w₂) ∧
        env.storeIdentity identity w₂ = (result, last)

theorem storesLast_of_stores_nothing {w last : ω} {name : Name} {acts : List Act}
    (h : ∀ identity result, Act.storedIdentity identity result ∉ acts) :
    StoresLast env w name acts last := by
  rintro before identity result after rfl
  exact absurd (by simp) (h identity result)

theorem storesLast_stored {w last : ω} {name : Name} {id : ClientId} {trip : RoundTrip}
    {key : PublicKey} {privateKey : PrivateKey} {result : Except TransferError Unit}
    (hrequest : trip.request = .registration name)
    (houtcome : trip.outcome = .ok (some (.registrationSuccess id)))
    (h : History env w [.roundTrip trip, .generatedKeys (.ok (key, privateKey)),
      .storedIdentity ⟨name, id, privateKey⟩ result] last) :
    StoresLast env w name [.roundTrip trip, .generatedKeys (.ok (key, privateKey)),
      .storedIdentity ⟨name, id, privateKey⟩ result] last := by
  intro before identity result' after hacts
  obtain ⟨w₁, htrip, hkeys⟩ := History.cons_iff.mp h
  obtain ⟨w₂, hgenerate, hlast⟩ := History.cons_iff.mp hkeys
  have hstore := History.singleton_iff.mp hlast
  -- The place of the entry is the third one; the two before it are of other kinds.
  rcases before with _ | ⟨a, _ | ⟨b, _ | ⟨c, before⟩⟩⟩
  · cases hacts
  · cases hacts
  · cases hacts
    exact ⟨rfl, rfl, trip, key, w₁, w₂, rfl, htrip, hrequest, houtcome, hgenerate, hstore⟩
  · have hlength := congrArg List.length hacts
    simp at hlength

variable {s : Session} {username : String} {deeds : List Deed} {y : Except Stop ClientId}

theorem RegisterCourse.storesLast {w last : ω} (h : RegisterCourse s username deeds y)
    (hhistory : History env w (Deed.acts deeds) last) :
    StoresLast env w ⟨username⟩ (Deed.acts deeds) last := by
  cases h with
  | invalid | lost | refused | keyless => exact storesLast_of_stores_nothing (by simp)
  | unstored hname hrequest houtcome | adopted hname hrequest houtcome =>
    obtain ⟨-, rfl⟩ := Name.ofUsername_eq_ok_iff.mp hname
    exact storesLast_stored hrequest houtcome hhistory

/-- The server is asked just if the text may be a user name. -/
theorem RegisterCourse.trips_ne_nil_iff (h : RegisterCourse s username deeds y) :
    trips (Deed.acts deeds) ≠ [] ↔ Name.IsUsername username := by
  cases h with
  | invalid hname =>
    have hnot : ¬Name.IsUsername username := by
      intro hu
      rw [Name.ofUsername_eq_ok_iff.mpr ⟨hu, rfl⟩] at hname
      cases hname
    simp [trips, hnot]
  | lost hname | refused hname | keyless hname | unstored hname | adopted hname =>
    have hu : Name.IsUsername username := (Name.ofUsername_eq_ok_iff.mp hname).1
    simp [trips, hu]

/-- A registration that does not succeed leaves the session. -/
theorem RegisterCourse.left_eq_of_error {stop : Stop}
    (h : RegisterCourse s username deeds (.error stop)) : Deed.left s deeds = s := by
  cases h <;> rfl

/-- Registration is all or nothing, from any session. The server is asked just if the text may be a
user name; an identity is stored at the very end, once the server has given the id and the key
provider the keys; and only where it could be stored does the session take it on. -/
theorem register_all_or_nothing (env : Environment ω) (username : String) (c : Client ω) :
    (¬Name.IsUsername username → ∃ e, (register env username).Returns c (.error e) c) ∧
    (∃ acts, ((register env username).final c).journal = c.journal ++ acts ∧
      History env c.world acts ((register env username).final c).world ∧
      (trips acts ≠ [] ↔ Name.IsUsername username) ∧
      StoresLast env c.world ⟨username⟩ acts ((register env username).final c).world) ∧
    (∀ e d, (register env username).Returns c (.error e) d → d.session = c.session) ∧
    (∀ d, (register env username).Hangs c d → d.session = c.session) ∧
    ∀ id d, (register env username).Returns c (.ok id) d →
      ∃ trip key privateKey w₁ w₂,
        d.journal = c.journal ++ [.roundTrip trip, .generatedKeys (.ok (key, privateKey)),
          .storedIdentity ⟨⟨username⟩, id, privateKey⟩ (.ok ())] ∧
        trip.Occurs env c.world w₁ ∧ trip.Held env ∧ trip.request = .registration ⟨username⟩ ∧
        trip.outcome = .ok (some (.registrationSuccess id)) ∧
        env.generateKeys w₁ = (.ok (key, privateKey), w₂) ∧
        env.storeIdentity ⟨⟨username⟩, id, privateKey⟩ w₂ = (.ok (), d.world) ∧
        d.session = ⟨.registered, ⟨username⟩, id, some key, some privateKey, none,
          c.session.pendingFile⟩ := by
  refine ⟨?_, ?_, ?_, ?_, ?_⟩
  · intro hnot
    cases hname : Name.ofUsername username with
    | ok name => exact absurd (Name.ofUsername_eq_ok_iff.mp hname).1 hnot
    | error e => exact ⟨e, returns_bind_of_error (returns_ofExcept.mpr ⟨hname.symm, rfl⟩)⟩
  · obtain ⟨y, hy⟩ := leads_final (register env username) c
    obtain ⟨deeds, hcourse, hcomes⟩ := register_follows c.session username c y _ rfl hy
    obtain ⟨hjournal, hhistory⟩ := hcomes.notes
    exact ⟨Deed.acts deeds, hjournal, hhistory, hcourse.trips_ne_nil_iff, hcourse.storesLast hhistory⟩
  · intro e d h
    obtain ⟨deeds, hcourse, hd⟩ := (register_follows c.session username).of_returns h
    rw [hd.session_eq]
    exact hcourse.left_eq_of_error
  · intro d h
    obtain ⟨deeds, hcourse, hcomes⟩ :=
      register_follows c.session username c _ d rfl (leads_of_hangs h)
    rw [hcomes.session_eq]
    exact hcourse.left_eq_of_error
  · intro id d h
    obtain ⟨deeds, hcourse, hd⟩ := (register_follows c.session username).of_returns h
    obtain ⟨hjournal, hhistory⟩ := hd.notes
    have hheld := hd.held
    have hsession := hd.session_eq
    cases hcourse with
    | @adopted name _ trip key privateKey hname hrequest houtcome =>
      obtain ⟨-, rfl⟩ := Name.ofUsername_eq_ok_iff.mp hname
      obtain ⟨w₁, htrip, hkeys⟩ := History.cons_iff.mp hhistory
      obtain ⟨w₂, hgenerate, hlast⟩ := History.cons_iff.mp hkeys
      exact ⟨trip, key, privateKey, w₁, w₂, hjournal, htrip, hheld trip (.head _), hrequest, houtcome,
        hgenerate, History.singleton_iff.mp hlast, hsession⟩

/-- A client with a session key and a file in mind registers anew: the key is dropped, the file is
not. -/
theorem registered_anew :
    ∃ c : Client (List Stream), Reachable inTurn c ∧ c.session.symmetricKey.isSome ∧
      ∃ id d, (register inTurn "ada").Returns c (.ok id) d ∧
        (∃ privateKey w, inTurn.storeIdentity ⟨⟨"ada"⟩, id, privateKey⟩ w = (.ok (), d.world) ∧
          d.session.privateKey = some privateKey) ∧
        d.session.state = .registered ∧ d.session.username = ⟨"ada"⟩ ∧ d.session.id = id ∧
          d.session.symmetricKey = none ∧ d.session.pendingFile = some [0x61] := by
  let registered : Stream := heedful [.data ([3, 52, 8, 16, 0, 0, 0] ++ List.replicate 16 7)]
  let keyed : Stream := heedful [.data ([3, 54, 8, 32, 0, 0, 0] ++ List.replicate 32 7)]
  let nobody : Stream := heedful [.data []]
  have hrun : (run inTurn [.register "bob", .exchangeKeys, .transfer [0x61]]
      (.new [registered, keyed, nobody, registered])).any (fun p =>
        p.2.session.symmetricKey.isSome && decide (p.2.session.pendingFile = some [0x61]) &&
          (ended (register inTurn "ada" p.2)).any fun q => q.1.isOk) = true := by
    decide +kernel
  obtain ⟨⟨history, c⟩, hc, hrun⟩ := (Option.any_eq_true _ _).mp hrun
  simp only [Bool.and_eq_true, decide_eq_true_eq] at hrun
  obtain ⟨⟨hkey, hfile⟩, hrun⟩ := hrun
  obtain ⟨⟨r, d⟩, h, hok⟩ := (Option.any_eq_true _ _).mp hrun
  cases r with
  | error e => cases hok
  | ok id =>
    have hreachable : Reachable inTurn c :=
      reachable_iff_runs.mpr ⟨_, history, (run_eq_some_iff.mp hc).2⟩
    obtain ⟨trip, key, privateKey, w₁, w₂, -, -, -, -, -, -, hstore, hsession⟩ :=
      (register_all_or_nothing inTurn "ada" c).2.2.2.2 id d h
    refine ⟨c, hreachable, hkey, id, d, h, ⟨privateKey, w₂, hstore, ?_⟩, ?_⟩
    · rw [hsession]
    · rw [hsession]
      exact ⟨rfl, rfl, rfl, rfl, hfile⟩

end Registering

section Restoring

/-- Resuming comes back. With an id, the session is what the stored identity says and no more.
With an error it is as it was, except where the stored identity has no id: then the session is lost
to it. -/
theorem restore_takes_on (env : Environment ω) (c : Client ω) :
    ∃ r d, (restore env).Returns c r d ∧
      (∀ id, r = .ok id → ∃ identity, (env.loadIdentity c.world).1 = .ok (some identity) ∧
        identity.id = id ∧ id.isAssigned ∧
          d.session = ⟨.registered, identity.username, id, none, some identity.privateKey, none,
            none⟩) ∧
      ∀ e, r = .error e →
        ((∀ identity, (env.loadIdentity c.world).1 ≠ .ok (some identity)) ∧
          d.session = c.session) ∨
        ∃ identity, (env.loadIdentity c.world).1 = .ok (some identity) ∧
          ¬identity.id.isAssigned ∧ e = .notRegistered ∧
            d.session = ⟨.unidentified, identity.username, identity.id, none,
              some identity.privateKey, none, none⟩ := by
  obtain ⟨r, deeds, d, hr, hcourse, hd⟩ := restore_returns env c
  have hsession := hd.session_eq
  have hhistory := hd.notes.history
  generalize hy : (r.mapError .failed : Except Stop _) = y at hcourse
  have hload {found : Except TransferError (Option Identity)}
      (hfound : History env c.world [.loadedIdentity found] d.world) :
      (env.loadIdentity c.world).1 = found := by
    rw [History.singleton_iff.mp hfound]
  refine ⟨r, d, hr, ?_⟩
  cases hcourse with
  | failed | missing =>
    cases r <;> cases hy
    rw [hload hhistory]
    constructor
    · intro id hid
      cases hid
    · intro e _
      left
      constructor
      · intro identity hload
        cases hload
      · exact hsession
  | @useless identity hid =>
    cases r <;> cases hy
    rw [hload hhistory]
    have hnone : ¬identity.id.isAssigned := by simp [hid]
    have hleft : Session.restore identity = ⟨.unidentified, identity.username, identity.id, none,
        some identity.privateKey, none, none⟩ := by
      rw [Session.restore, if_neg hnone]
    constructor
    · intro id hid
      cases hid
    · intro e he
      cases he
      right
      exact ⟨identity, rfl, hnone, rfl, hsession.trans hleft⟩
  | @restored identity hid =>
    cases r <;> cases hy
    rw [hload hhistory]
    have hleft : Session.restore identity = ⟨.registered, identity.username, identity.id, none,
        some identity.privateKey, none, none⟩ := by
      rw [Session.restore, if_pos hid]
    constructor
    · intro id he
      cases he
      exact ⟨identity, rfl, rfl, hid, hsession.trans hleft⟩
    · intro e he
      cases he

/-- A client with a session key resumes from a stored identity that has no id: it is told that it is
not registered, and all that it had is gone. -/
theorem resumed_to_nothing :
    ∃ (env : Environment (List Stream)) (c d : Client (List Stream)), Reachable env c ∧
      (restore env).Returns c (.error .notRegistered) d ∧
      c.session.state = .keyEstablished ∧ c.session.symmetricKey.isSome ∧
        c.session.publicKey.isSome ∧
          d.session = ⟨.unidentified, ⟨"bob"⟩, .unassigned, none, some ⟨[]⟩, none, none⟩ := by
  let identity : Identity := ⟨⟨"bob"⟩, .unassigned, ⟨[]⟩⟩
  let env : Environment (List Stream) :=
    { inTurn with loadIdentity := fun w => (.ok (some identity), w) }
  let registered : Stream := heedful [.data ([3, 52, 8, 16, 0, 0, 0] ++ List.replicate 16 7)]
  let keyed : Stream := heedful [.data ([3, 54, 8, 32, 0, 0, 0] ++ List.replicate 32 7)]
  have hrun : (run env [.register "ada", .exchangeKeys] (.new [registered, keyed])).any (fun p =>
      decide (p.2.session.state = .keyEstablished) && p.2.session.symmetricKey.isSome &&
        p.2.session.publicKey.isSome) = true := by
    decide +kernel
  obtain ⟨⟨history, c⟩, hc, hrun⟩ := (Option.any_eq_true _ _).mp hrun
  simp only [Bool.and_eq_true, decide_eq_true_eq] at hrun
  obtain ⟨⟨hstate, hkey⟩, hpublic⟩ := hrun
  have hload : (env.loadIdentity c.world).1 = .ok (some identity) := rfl
  obtain ⟨d, hrestore, hsession⟩ := restore_of_loaded hload
  exact ⟨env, c, d, reachable_iff_runs.mpr ⟨_, history, (run_eq_some_iff.mp hc).2⟩, hrestore, hstate,
    hkey, hpublic, hsession⟩

end Restoring

end Courier.Client
