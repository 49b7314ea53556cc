import Courier.Proofs.Client.SessionInvariant
import Courier.Proofs.Client.Runs
import Courier.Proofs.Client.Uploads

namespace Courier

theorem Path.invalidName_of_wireName {path : Bytes} {e : TransferError}
    (h : wireName path = .error e) : ∃ reason, e = .invalidName reason := by
  unfold wireName at h
  split at h
  · cases h
    exact ⟨_, rfl⟩
  · unfold Name.ofText at h
    split at h
    · cases h
      exact ⟨_, rfl⟩
    split at h
    · cases h
    · cases h
      exact ⟨_, rfl⟩

namespace Session

variable {s : Session}

theorem beginTransfer_of_unassigned (hid : s.id.isAssigned = false) :
    s.beginTransfer = .error .notRegistered := by
  have hrequire : s.requireId = .error .notRegistered := by
    rw [requireId, hid]
    rfl
  rw [beginTransfer, hrequire, error_bind]

theorem beginTransfer_of_keyless (hid : s.id.isAssigned) (hkey : s.symmetricKey = none) :
    s.beginTransfer = .error .noSymmetricKey := by
  have hrequire : s.requireSymmetricKey = .error .noSymmetricKey := by
    rw [requireSymmetricKey, hkey]
  rw [beginTransfer, requireId, if_pos hid, ok_bind, hrequire, error_bind]

theorem beginTransfer_of_keyed (hid : s.id.isAssigned) (hkey : s.symmetricKey.isSome) :
    s.beginTransfer = .ok { s with state := .transferring } := by
  obtain ⟨key, hkey⟩ := Option.isSome_iff_exists.mp hkey
  have hrequire : s.requireSymmetricKey = .ok key := by
    rw [requireSymmetricKey, hkey]
  rw [beginTransfer, requireId, if_pos hid, ok_bind, hrequire, ok_bind]
  rfl

end Session

namespace Client

open Courier.Action

variable {ω : Type} {env : Environment ω} {c d : Client ω} {path : Bytes}

/-- A path without a name for the wire ends a transfer before the session is looked at. -/
theorem transfer_of_unnamed {e : TransferError} (hname : Path.wireName path = .error e) :
    (transfer env path).Returns c (.error e)
      { c with session := c.session.withPendingFile path } := by
  have hpend : (changeSession (·.withPendingFile path)).Returns c (.ok ())
      { c with session := c.session.withPendingFile path } :=
    returns_changeSession.mpr ⟨rfl, rfl⟩
  refine (returns_bind_of_ok hpend).mpr (returns_bind_of_error ?_)
  exact returns_ofExcept.mpr ⟨hname.symm, rfl⟩

/-- A session that may not begin a transfer ends it before anything is done for it. -/
theorem transfer_of_unready {file : Name} {e : TransferError}
    (hname : Path.wireName path = .ok file)
    (hbegin : (c.session.withPendingFile path).beginTransfer = .error e) :
    (transfer env path).Returns c (.error e)
      { c with session := c.session.withPendingFile path } := by
  have hpend : (changeSession (·.withPendingFile path)).Returns c (.ok ())
      { c with session := c.session.withPendingFile path } :=
    returns_changeSession.mpr ⟨rfl, rfl⟩
  refine (returns_bind_of_ok hpend).mpr ?_
  refine (returns_bind_of_ok (returns_ofExcept.mpr ⟨hname.symm, rfl⟩)).mpr ?_
  exact returns_bind_of_error (returns_require.mpr ⟨hbegin.symm, rfl⟩)

/-- A transfer that has begun comes back with a session that its result decides. -/
theorem transfer_session_of_keyed {file : Name} (hname : Path.wireName path = .ok file)
    (hid : c.session.id.isAssigned) (hkey : c.session.symmetricKey.isSome)
    {r : Except TransferError Delivery} (h : (transfer env path).Returns c r d) :
    d.session = { c.session with state := .afterTransfer r, pendingFile := some path } := by
  have hbegin : (c.session.withPendingFile path).beginTransfer =
      .ok { c.session.withPendingFile path with state := .transferring } :=
    Session.beginTransfer_of_keyed hid hkey
  obtain ⟨work, m, k, hwork, -, -, hwhole⟩ := transfer_deeds hname hbegin h
  rw [hwhole.session_eq, Deed.left_changed, Deed.left_changed, Deed.left_append, hwork.left_eq]
  exact Session.closed_eq rfl r

theorem transfer_session {r : Except TransferError Delivery}
    (h : (transfer env path).Returns c r d) :
    d.session = { c.session with state := d.session.state, pendingFile := some path } := by
  obtain ⟨deeds, hcourse, hd⟩ := (transfer_follows _ path).of_returns h
  rcases hcourse.refused_or_closed with ⟨rfl, -⟩ | ⟨file, t, -, -, hname, hbegin, -⟩
  · rw [hd.session_eq]
    rfl
  · obtain ⟨hid, hkey, -⟩ := Session.eq_of_beginTransfer hbegin
    rw [transfer_session_of_keyed hname hid hkey h]

/-- A transfer leaves identity and keys alone and keeps the path in mind. Without a name for the
wire, an identity or a session key it fails, in this order, and nothing else changes. With all of
them it begins in one of three states, its result decides in which of them it ends, and the next
transfer may begin as well. -/
theorem transfer_settles (hc : Reachable env c) (path : Bytes) :
    (∀ r d, (transfer env path).Returns c r d →
      d.session = { c.session with state := d.session.state, pendingFile := some path }) ∧
    (∀ e, Path.wireName path = .error e →
      (∃ reason, e = .invalidName reason) ∧
        (transfer env path).Returns c (.error e)
          { c with session := { c.session with pendingFile := some path } }) ∧
    ∀ file, Path.wireName path = .ok file →
      (c.session.id.isAssigned = false →
        (transfer env path).Returns c (.error .notRegistered)
          { c with session := { c.session with pendingFile := some path } }) ∧
      (c.session.id.isAssigned → c.session.symmetricKey = none →
        (transfer env path).Returns c (.error .noSymmetricKey)
          { c with session := { c.session with pendingFile := some path } }) ∧
      (c.session.id.isAssigned → c.session.symmetricKey.isSome →
        (c.session.state = .keyEstablished ∨ c.session.state = .done ∨
          c.session.state = .failed) ∧
        ∀ r d, (transfer env path).Returns c r d →
          d.session.state = .afterTransfer r ∧
          ∀ next, (d.session.withPendingFile next).beginTransfer =
            .ok { d.session with state := .transferring, pendingFile := some next }) := by
  refine ⟨fun r d h => transfer_session h, fun e hname => ?_, fun file hname => ⟨?_, ?_, ?_⟩⟩
  · exact ⟨Path.invalidName_of_wireName hname, transfer_of_unnamed hname⟩
  · intro hid
    exact transfer_of_unready hname (Session.beginTransfer_of_unassigned hid)
  · intro hid hkey
    exact transfer_of_unready hname (Session.beginTransfer_of_keyless hid hkey)
  · intro hid hkey
    refine ⟨hc.isSound.keyed.mp hkey, fun r d h => ?_⟩
    have hsession := transfer_session_of_keyed hname hid hkey h
    refine ⟨by rw [hsession], fun next => ?_⟩
    apply Session.beginTransfer_of_keyed
    · rw [hsession]
      exact hid
    · rw [hsession]
      exact hkey

/-- A client has delivered a file and finds no server for the next one. -/
theorem transfer_settles_unserved :
    ∃ c d : Client (List Stream), Reachable inTurn c ∧ c.session.state = .done ∧
      c.session.id.isAssigned ∧ c.session.symmetricKey.isSome ∧
      Path.wireName [0x62] = .ok ⟨"b"⟩ ∧
      (transfer inTurn [0x62]).Returns c (.error (.connectFailed "server" "none left")) d ∧
      d.session = { c.session with state := .keyEstablished, pendingFile := some [0x62] } ∧
      (d.session.withPendingFile [0x63]).beginTransfer =
        .ok { d.session with state := .transferring, pendingFile := some [0x63] } := by
  have hrun : (run inTurn [.register "ada", .exchangeKeys, .transfer [0x61]]
      (.new [heedful [.data ([3, 52, 8, 16, 0, 0, 0] ++ List.replicate 16 7)],
        heedful [.data ([3, 54, 8, 32, 0, 0, 0] ++ List.replicate 32 7)],
        heedful [.data (reportOf [0, 0, 0, 0])], heedful [.data acknowledgement]])).any (fun p =>
        decide (p.2.session.state = .done) && p.2.session.id.isAssigned &&
          p.2.session.symmetricKey.isSome && (ended (transfer inTurn [0x62] p.2)).any fun q =>
            decide (q.1 = .error (.connectFailed "server" "none left"))) = true := by
    decide +kernel
  obtain ⟨⟨history, c⟩, hruns, hrun⟩ := (Option.any_eq_true _ _).mp hrun
  simp only [Bool.and_eq_true, decide_eq_true_eq] at hrun
  obtain ⟨⟨⟨hstate, hid⟩, hkey⟩, hrun⟩ := hrun
  obtain ⟨⟨r, d⟩, h, hr⟩ := (Option.any_eq_true _ _).mp hrun
  cases of_decide_eq_true hr
  have hc : Reachable inTurn c :=
    reachable_iff_runs.mpr ⟨_, history, (run_eq_some_iff.mp hruns).2⟩
  have hname : Path.wireName [0x62] = .ok ⟨"b"⟩ := by decide +kernel
  obtain ⟨hkept, -, hnamed⟩ := transfer_settles hc [0x62]
  obtain ⟨-, hends⟩ := (hnamed _ hname).2.2 hid hkey
  obtain ⟨hafter, hnext⟩ := hends _ d h
  have hsession := hkept _ d h
  rw [hafter] at hsession
  exact ⟨c, d, hc, hstate, hid, hkey, hname, h, hsession, hnext _⟩

end Client

end Courier
