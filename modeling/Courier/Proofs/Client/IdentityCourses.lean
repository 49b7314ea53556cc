import Courier.Client.Identity
import Courier.Proofs.Client.Deeds

namespace Courier.Client

open Courier.Action

variable {ω : Type} {env : Environment ω} {s : Session}

/-- What comes of resuming from the stored identity. -/
inductive RestoreCourse : List Deed → Except Stop ClientId → Prop where
  | failed {e : TransferError} :
    RestoreCourse [.noted (.loadedIdentity (.error e))] (.error (.failed e))
  | missing :
    RestoreCourse [.noted (.loadedIdentity (.ok none))] (.error (.failed .noStoredIdentity))
  | useless {identity : Identity} : identity.id.isAssigned = false →
    RestoreCourse [.noted (.loadedIdentity (.ok (some identity))), .changed (.restore identity)]
      (.error (.failed .notRegistered))
  | restored {identity : Identity} : identity.id.isAssigned →
    RestoreCourse
      [.noted (.loadedIdentity (.ok (some identity))), .changed (.restore identity),
        .told (.identityRestored identity.username identity.id)]
      (.ok identity.id)

/-- What comes of a registration under a user name. -/
inductive RegisterCourse (s : Session) (username : String) :
    List Deed → Except Stop ClientId → Prop where
  | invalid {e : TransferError} :
    Name.ofUsername username = .error e → RegisterCourse s username [] (.error (.failed e))
  | lost {name : Name} {trip : RoundTrip} {stop : Stop} :
    Name.ofUsername username = .ok name → trip.request = .registration name →
      trip.outcome = .error stop →
        RegisterCourse s username [.noted (.roundTrip trip)] (.error stop)
  | refused {name : Name} {trip : RoundTrip} :
    Name.ofUsername username = .ok name → trip.request = .registration name →
      trip.outcome = .ok (some .registrationFailure) →
        RegisterCourse s username [.noted (.roundTrip trip), .told .registrationRefused]
          (.error (.failed .registrationDenied))
  | keyless {name : Name} {id : ClientId} {trip : RoundTrip} {e : TransferError} :
    Name.ofUsername username = .ok name → trip.request = .registration name →
      trip.outcome = .ok (some (.registrationSuccess id)) →
        RegisterCourse s username
          [.noted (.roundTrip trip), .noted (.generatedKeys (.error e))] (.error (.failed e))
  | unstored {name : Name} {id : ClientId} {trip : RoundTrip} {key : PublicKey}
      {privateKey : PrivateKey} {e : TransferError} :
    Name.ofUsername username = .ok name → trip.request = .registration name →
      trip.outcome = .ok (some (.registrationSuccess id)) →
        RegisterCourse s username
          [.noted (.roundTrip trip), .noted (.generatedKeys (.ok (key, privateKey))),
            .noted (.storedIdentity ⟨name, id, privateKey⟩ (.error e))] (.error (.failed e))
  | adopted {name : Name} {id : ClientId} {trip : RoundTrip} {key : PublicKey}
      {privateKey : PrivateKey} :
    Name.ofUsername username = .ok name → trip.request = .registration name →
      trip.outcome = .ok (some (.registrationSuccess id)) →
        RegisterCourse s username
          [.noted (.roundTrip trip), .noted (.generatedKeys (.ok (key, privateKey))),
            .noted (.storedIdentity ⟨name, id, privateKey⟩ (.ok ())),
            .changed (s.adopt ⟨name, id, privateKey⟩ key), .told (.registered id)] (.ok id)

theorem restore_follows (s : Session) : Follows env (restore env) s RestoreCourse := by
  refine follows_consult_bind (fun _ => rfl) (fun _ => rfl) ?_ ?_
  · intro e
    exact .failed
  · intro found
    cases found with
    | none => exact follows_fail .missing
    | some identity =>
      apply follows_changeSession_bind
      cases hid : identity.id.isAssigned with
      | false =>
        have hrequire : (Session.restore identity).requireId = .error .notRegistered :=
          if_neg (by rw [Session.restore, hid]; nofun)
        apply follows_require_bind
        · intro e he
          cases hrequire.symm.trans he
          exact .useless hid
        · intro id he
          cases hrequire.symm.trans he
      | true =>
        have hrequire : (Session.restore identity).requireId = .ok identity.id := if_pos hid
        apply follows_require_bind
        · intro e he
          cases hrequire.symm.trans he
        · intro id he
          cases hrequire.symm.trans he
          apply follows_report_bind (by nofun)
          exact follows_pure (.restored hid)

/-- Resuming comes back. -/
theorem restore_returns (env : Environment ω) (c : Client ω) :
    ∃ r deeds d, (restore env).Returns c r d ∧ RestoreCourse deeds (r.mapError .failed) ∧
      Does env c deeds d := by
  obtain ⟨y, hy⟩ := leads_final (restore env) c
  obtain ⟨deeds, hcourse, -⟩ := restore_follows c.session c y _ rfl hy
  have hended : y ≠ .error .hung := by
    cases hcourse <;> nofun
  obtain ⟨r, -, hr⟩ := returns_of_leads hy hended
  obtain ⟨deeds, hcourse, hd⟩ := (restore_follows c.session).of_returns hr
  exact ⟨r, deeds, _, hr, hcourse, hd⟩

/-- An identity that is in storage is taken on, and then looked at. -/
theorem restore_of_loaded {c : Client ω} {identity : Identity}
    (h : (env.loadIdentity c.world).1 = .ok (some identity)) :
    ∃ d, (restore env).Returns c (Session.restore identity).requireId d ∧
      d.session = Session.restore identity := by
  obtain ⟨r, deeds, d, hr, hcourse, hd⟩ := restore_returns env c
  have hsession := hd.session_eq
  have hhistory := hd.notes.history
  generalize hy : (r.mapError .failed : Except Stop _) = y at hcourse
  have hload {found : Except TransferError (Option Identity)}
      (hfound : History env c.world [.loadedIdentity found] d.world) : found = .ok (some identity) := by
    rw [← h, History.singleton_iff.mp hfound]
  cases hcourse with
  | failed => cases hload hhistory
  | missing => cases hload hhistory
  | useless hid =>
    cases hload hhistory
    cases r <;> cases hy
    have hrequire : (Session.restore identity).requireId = .error .notRegistered :=
      if_neg (by rw [Session.restore, hid]; nofun)
    rw [← hrequire] at hr
    exact ⟨d, hr, hsession⟩
  | restored hid =>
    cases hload hhistory
    cases r <;> cases hy
    have hrequire : (Session.restore identity).requireId = .ok identity.id := if_pos hid
    rw [← hrequire] at hr
    exact ⟨d, hr, hsession⟩

theorem takeIdentity_follows {username : String} {name : Name} {id : ClientId} {trip : RoundTrip}
    (hname : Name.ofUsername username = .ok name) (hrequest : trip.request = .registration name)
    (houtcome : trip.outcome = .ok (some (.registrationSuccess id))) :
    Follows env (takeIdentity env name id) s fun deeds y =>
      RegisterCourse s username (.noted (.roundTrip trip) :: deeds) y := by
  refine follows_consult_bind (fun _ => rfl) (fun _ => rfl) ?_ ?_
  · intro e
    exact .keyless hname hrequest houtcome
  · rintro ⟨key, privateKey⟩
    refine follows_consult_bind (fun _ => rfl) (fun _ => rfl) ?_ ?_
    · intro e
      exact .unstored hname hrequest houtcome
    · intro _
      apply follows_changeSession_bind
      apply follows_report_bind (by nofun)
      exact follows_pure (.adopted hname hrequest houtcome)

theorem register_follows (s : Session) (username : String) :
    Follows env (register env username) s (RegisterCourse s username) := by
  apply follows_ofExcept_bind
  · intro e hname
    exact .invalid hname
  · intro name hname
    apply follows_ask_bind rfl
    · intro trip stop hrequest houtcome
      exact .lost hname hrequest houtcome
    · intro trip p hrequest houtcome hcode
      cases p with
      | registrationSuccess id => exact takeIdentity_follows hname hrequest houtcome
      | registrationFailure =>
        apply follows_report_bind (by nofun)
        exact follows_fail (.refused hname hrequest houtcome)
      | _ => simp [ResponsePayload.code, ResponseCode.substitute?] at hcode

end Courier.Client
