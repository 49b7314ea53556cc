import Courier.Proofs.Client.SessionInvariant
import Courier.Rehearsal.World

namespace Courier.Client

variable {ω : Type} {env : Environment ω} {c d : Client ω}

/-- The identity was last changed by a registration to which the server gave no identity. -/
def RegisteredUnassigned (journal : List Act) : Prop :=
  ∃ before identity after, journal = before ++ .storedIdentity identity (.ok ()) :: after ∧
    identity.id.isAssigned = false ∧ ∀ act ∈ after, ¬act.ChangesIdentity

theorem registeredUnassigned_append {journal acts : List Act}
    (h : ∀ act ∈ acts, ¬act.ChangesIdentity) :
    RegisteredUnassigned (journal ++ acts) ↔ RegisteredUnassigned journal := by
  constructor
  · rintro ⟨before, identity, after, hj, hid, hafter⟩
    rcases append_eq_middle hj with ⟨rest, hrest, rfl⟩ | ⟨earlier, -, rfl⟩
    · refine ⟨before, identity, rest, hrest, hid, ?_⟩
      intro act hact
      exact hafter act (List.mem_append_left _ hact)
    · exact absurd trivial (h (.storedIdentity identity (.ok ())) (by simp))
  · rintro ⟨before, identity, after, rfl, hid, hafter⟩
    refine ⟨before, identity, after ++ acts, by simp, hid, ?_⟩
    intro act hact
    rcases List.mem_append.mp hact with hact | hact
    · exact hafter act hact
    · exact h act hact

/-- Only the last change of the identity counts. -/
theorem registeredUnassigned_concat {journal : List Act} {act : Act} (h : act.ChangesIdentity) :
    RegisteredUnassigned (journal ++ [act]) ↔
      ∃ identity, act = .storedIdentity identity (.ok ()) ∧ identity.id.isAssigned = false := by
  constructor
  · rintro ⟨before, identity, after, hj, hid, hafter⟩
    rcases List.eq_nil_or_concat after with rfl | ⟨earlier, last, rfl⟩
    · obtain ⟨-, hact⟩ := List.append_inj' hj rfl
      exact ⟨identity, List.singleton_inj.mp hact, hid⟩
    · rw [List.concat_eq_append] at hj hafter
      have hlast : journal ++ [act] =
          (before ++ .storedIdentity identity (.ok ()) :: earlier) ++ [last] := by
        rw [hj]
        simp
      have hact : act = last := List.singleton_inj.mp (List.append_inj' hlast rfl).2
      rw [hact] at h
      exact absurd h (hafter last (by simp))
  · rintro ⟨identity, rfl, hid⟩
    exact ⟨journal, identity, [], rfl, hid, by simp⟩

/-- The session is in its first state just if it has no identity and was not left without one by the
server. -/
def WellNamed (s : Session) (journal : List Act) : Prop :=
  s.state = .unidentified ↔ s.id.isAssigned = false ∧ ¬RegisteredUnassigned journal

namespace WellNamed

variable {s t : Session} {journal acts : List Act}

/-- The identity stays, and the session neither comes to its first state nor leaves it. -/
theorem append (h : WellNamed s journal) (hid : t.id = s.id)
    (hstate : t.state = .unidentified ↔ s.state = .unidentified)
    (ha : ∀ act ∈ acts, ¬act.ChangesIdentity) : WellNamed t (journal ++ acts) := by
  unfold WellNamed at h ⊢
  rw [hstate, hid, registeredUnassigned_append ha]
  exact h

/-- An identity that is there keeps the session out of its first state. -/
theorem state_ne (h : WellNamed s journal) (hid : s.id.isAssigned) : s.state ≠ .unidentified := by
  intro hs
  have hno := (h.mp hs).1
  rw [hid] at hno
  cases hno

/-- With an identity the session need only stay out of its first state. -/
theorem append_of_assigned (h : WellNamed s journal) (hid : s.id.isAssigned) (hsame : t.id = s.id)
    (hstate : t.state ≠ .unidentified) (ha : ∀ act ∈ acts, ¬act.ChangesIdentity) :
    WellNamed t (journal ++ acts) := by
  have hs := h.state_ne hid
  exact h.append hsame (by simp [hs, hstate]) ha

end WellNamed

section Courses

variable {s : Session} {journal : List Act} {deeds : List Deed} {retries : UInt32}

theorem RestoreCourse.wellNamed {y : Except Stop ClientId} (h : RestoreCourse deeds y)
    (hn : WellNamed s journal) :
    WellNamed (Deed.left s deeds) (journal ++ Deed.acts deeds) := by
  have hchanges (identity : Identity) :
      (Act.loadedIdentity (.ok (some identity))).ChangesIdentity := trivial
  cases h with
  | failed | missing => exact hn.append rfl Iff.rfl (by simp [Act.ChangesIdentity])
  | @useless identity hid =>
    change WellNamed (.restore identity) (journal ++ [.loadedIdentity (.ok (some identity))])
    rw [WellNamed, registeredUnassigned_concat (hchanges identity)]
    simp [Session.restore, hid]
  | @restored identity hid =>
    change WellNamed (.restore identity) (journal ++ [.loadedIdentity (.ok (some identity))])
    rw [WellNamed, registeredUnassigned_concat (hchanges identity)]
    simp [Session.restore, hid]

theorem RegisterCourse.wellNamed {username : String} {y : Except Stop ClientId}
    (h : RegisterCourse s username deeds y) (hn : WellNamed s journal) :
    WellNamed (Deed.left s deeds) (journal ++ Deed.acts deeds) := by
  cases h with
  | invalid | lost | refused | keyless | unstored =>
    exact hn.append rfl Iff.rfl (by simp [Act.ChangesIdentity])
  | @adopted name id trip key privateKey =>
    have hchanges : (Act.storedIdentity ⟨name, id, privateKey⟩ (.ok ())).ChangesIdentity := trivial
    have hlast : journal ++ [.roundTrip trip, .generatedKeys (.ok (key, privateKey)),
        .storedIdentity ⟨name, id, privateKey⟩ (.ok ())] =
        journal ++ [.roundTrip trip, .generatedKeys (.ok (key, privateKey))] ++
          [.storedIdentity ⟨name, id, privateKey⟩ (.ok ())] := by
      simp
    change WellNamed (s.adopt ⟨name, id, privateKey⟩ key) (journal ++ [.roundTrip trip,
      .generatedKeys (.ok (key, privateKey)), .storedIdentity ⟨name, id, privateKey⟩ (.ok ())])
    rw [WellNamed, hlast, registeredUnassigned_concat hchanges]
    simp [Session.adopt]

theorem TakeCourse.state_ne {wrapped : Bytes} {y : Except Stop Unit}
    (h : TakeCourse s wrapped deeds y) (hid : s.id.isAssigned) :
    (Deed.left s deeds).state ≠ .unidentified := by
  cases h with
  | ownerless | unusable => simp [Session.dropKey, hid]
  | installed => simp [Session.installKey]

theorem KeyCourse.wellNamed {request : Request} {y : Except Stop Unit}
    (h : KeyCourse s request deeds y) (hid : s.id.isAssigned) (hn : WellNamed s journal) :
    WellNamed (Deed.left s deeds) (journal ++ Deed.acts deeds) := by
  refine hn.append_of_assigned hid h.keeps.1.id_eq ?_ h.not_changesIdentity
  cases h with
  | lost => exact hn.state_ne hid
  | denied => simp [Session.deny]
  | taken _ _ htake => exact htake.state_ne hid

theorem KeySource.wellNamed {y : Except Stop PublicKey} (h : KeySource s deeds y)
    (hn : WellNamed s journal) :
    WellNamed (Deed.left s deeds) (journal ++ Deed.acts deeds) := by
  refine hn.append h.sameOwner.id_eq ?_ fun act hact =>
    Act.not_changesIdentity_of_not_endsKey (h.not_endsKey act hact)
  cases h <;> rfl

theorem ExchangeCourse.wellNamed {y : Except Stop Unit} (h : ExchangeCourse s deeds y)
    (hn : WellNamed s journal) :
    WellNamed (Deed.left s deeds) (journal ++ Deed.acts deeds) := by
  cases h with
  | unregistered => exact hn.append rfl Iff.rfl (by simp)
  | unasked _ hsource => exact hsource.wellNamed hn
  | asked hid hsource hcourse =>
    rw [Deed.left_append, Deed.acts_append, ← List.append_assoc]
    rw [← hsource.sameOwner.id_eq] at hid
    exact hcourse.wellNamed hid (hsource.wellNamed hn)

theorem ReconnectCourse.wellNamed {y : Except Stop Unit} (h : ReconnectCourse s deeds y)
    (hn : WellNamed s journal) :
    WellNamed (Deed.left s deeds) (journal ++ Deed.acts deeds) := by
  cases h with
  | unregistered => exact hn.append rfl Iff.rfl (by simp)
  | asked hid hcourse => exact hcourse.wellNamed hid hn

theorem TransferCourse.wellNamed {path : Bytes} {r : Except TransferError Delivery}
    (h : TransferCourse retries s path deeds (r.mapError .failed)) (hn : WellNamed s journal) :
    WellNamed (Deed.left s deeds) (journal ++ Deed.acts deeds) := by
  have hacts : ∀ act ∈ Deed.acts deeds, ¬act.ChangesIdentity := fun act hact =>
    Act.not_changesIdentity_of_not_endsKey (h.not_endsKey act hact)
  have hsame := h.keeps.1.id_eq
  rcases h.refused_or_closed with ⟨rfl, -⟩ | ⟨file, t, work, m, -, hbegin, hwork, rfl⟩
  · exact hn.append hsame Iff.rfl hacts
  · obtain ⟨hid, -, rfl⟩ := Session.eq_of_beginTransfer hbegin
    refine hn.append_of_assigned hid hsame ?_ hacts
    rw [Deed.left_changed, Deed.left_changed, Deed.left_append, hwork.left_eq]
    change (Session.closed _ r).state ≠ _
    rw [Session.closed_eq rfl]
    rcases SessionState.afterTransfer_cases r with hr | hr | hr <;> simp [hr]

theorem OperationCourse.wellNamed {op : Operation} {r : Except TransferError Reply}
    (h : OperationCourse retries s op deeds (r.mapError .failed)) (hn : WellNamed s journal) :
    WellNamed (Deed.left s deeds) (journal ++ Deed.acts deeds) := by
  have hkept (hs : Deed.left s deeds = s) (hacts : ∀ act ∈ Deed.acts deeds, ¬act.EndsKey) :
      WellNamed (Deed.left s deeds) (journal ++ Deed.acts deeds) := by
    rw [hs]
    exact hn.append rfl Iff.rfl fun act hact =>
      Act.not_changesIdentity_of_not_endsKey (hacts act hact)
  generalize hz : (r.mapError .failed : Except Stop _) = z at h
  cases h with
  | restore h => exact h.wellNamed hn
  | register h => exact h.wellNamed hn
  | exchangeKeys h => exact h.wellNamed hn
  | reconnect h => exact h.wellNamed hn
  | transfer h =>
    obtain ⟨y, rfl, -⟩ := Action.eq_map_of_mapError_failed hz
    exact h.wellNamed hn
  | uploadOnce h => exact hkept (h.left_eq s) h.not_endsKey
  | giveUp h => exact hkept (h.left_eq s) h.not_endsKey

end Courses

theorem Reachable.wellNamed (h : Reachable env c) : WellNamed c.session c.journal := by
  induction h with
  | new world =>
    have hnone : ¬RegisteredUnassigned [] := by
      rintro ⟨before, identity, after, hj, -⟩
      simp at hj
    exact ⟨fun _ => ⟨rfl, hnone⟩, fun _ => rfl⟩
  | step _ hop ih =>
    obtain ⟨deeds, hcourse, hd⟩ := (perform_follows _ _).of_returns hop
    rw [hd.session_eq, hd.notes.journal_eq]
    exact hcourse.wellNamed ih

/-- The user name, identity and private key of the session are those of a stored identity. -/
def Bears (c : Client ω) (identity : Identity) : Prop :=
  c.session.username = identity.username ∧ c.session.id = identity.id ∧
    c.session.privateKey = some identity.privateKey

/-- A registration that succeeds leaves the session and the storage with the same identity. -/
theorem register_stored {username : String} {id : ClientId}
    (h : (register env username).Returns c (.ok id) d) :
    ∃ before identity, d.journal = before ++ [.storedIdentity identity (.ok ())] ∧
      identity.id = id ∧ d.Bears identity ∧ d.session.state = .registered := by
  obtain ⟨deeds, hcourse, hd⟩ := (register_follows c.session username).of_returns h
  have hsession := hd.session_eq
  have hjournal := hd.notes.journal_eq
  unfold Bears
  cases hcourse with
  | @adopted name _ trip key privateKey =>
    refine ⟨c.journal ++ [.roundTrip trip, .generatedKeys (.ok (key, privateKey))],
      ⟨name, id, privateKey⟩, ?_, rfl, ?_, ?_⟩
    · rw [hjournal, List.append_assoc]
      rfl
    · rw [hsession]
      exact ⟨rfl, rfl, rfl⟩
    · rw [hsession]
      rfl

/-- Resuming from an identity that is in storage comes back with what the identity is worth. -/
theorem restore_of_stored {identity : Identity}
    (h : (env.loadIdentity c.world).1 = .ok (some identity)) :
    ∃ d, (restore env).Returns c (Session.restore identity).requireId d ∧
      d.Bears identity ∧
      d.session.state = if identity.id.isAssigned then .registered else .unidentified := by
  obtain ⟨d, hrestore, hsession⟩ := restore_of_loaded h
  unfold Bears
  refine ⟨d, hrestore, ?_⟩
  rw [hsession]
  exact ⟨⟨rfl, rfl, rfl⟩, rfl⟩

/-- Between operations the session is in its first state just if it has no identity, unless a
registration left it without one. A registration that succeeds stores the identity that the session
then has, and resuming from that brings it back, but fails if the server gave none. -/
theorem unidentified_iff (h : Reachable env c) :
    (c.session.state = .unidentified ↔
      c.session.id.isAssigned = false ∧ ¬RegisteredUnassigned c.journal) ∧
    ∀ username id d, (register env username).Returns c (.ok id) d →
      ∃ before identity, d.journal = before ++ [.storedIdentity identity (.ok ())] ∧
        identity.id = id ∧ d.Bears identity ∧ d.session.state = .registered ∧
        ∀ m : Client ω, (env.loadIdentity m.world).1 = .ok (some identity) →
          ∃ n, (restore env).Returns m (if id.isAssigned then .ok id else .error .notRegistered) n ∧
            n.Bears identity ∧
            n.session.state = if id.isAssigned then .registered else .unidentified := by
  refine ⟨h.wellNamed, ?_⟩
  intro username id d hregister
  obtain ⟨before, identity, hjournal, rfl, hbears, hstate⟩ := register_stored hregister
  refine ⟨before, identity, hjournal, rfl, hbears, hstate, ?_⟩
  intro m hload
  exact restore_of_stored hload

/-- A client registers and resumes from what it has stored. -/
theorem unidentified_iff_resumed :
    ∃ (env : Environment Rehearsal.World) (c d e : Client Rehearsal.World) (id : ClientId),
      Reachable env c ∧ c.session.state = .unidentified ∧ c.session.id.isAssigned = false ∧
        (register env "ada").Returns c (.ok id) d ∧ (restore env).Returns d (.ok id) e ∧
        e.session.id = id ∧ e.session.state = .registered := by
  let script : Rehearsal.Script :=
    ⟨Rehearsal.Script.defaultPublicKey, Rehearsal.Script.defaultPrivateKey, [], [], .none⟩
  let env := script.environment ⟨100, 50⟩ 3
  let c : Client Rehearsal.World := .new
    ⟨[.ok (heedful [.data ([3, 52, 8, 16, 0, 0, 0] ++ List.replicate 16 7)])], none⟩
  let identity : Identity :=
    ⟨⟨"ada"⟩, ⟨List.replicate 16 7, rfl⟩, ⟨Rehearsal.Script.defaultPrivateKey⟩⟩
  have hrun : (Action.ended (register env "ada" c)).any (fun p =>
      decide (p.1 = .ok identity.id) &&
        decide (p.2.session.username = identity.username ∧
          p.2.session.privateKey = some identity.privateKey) &&
        decide ((env.loadIdentity p.2.world).1 = .ok (some identity))) = true := by
    decide +kernel
  obtain ⟨⟨r, d⟩, hr, hrun⟩ := (Option.any_eq_true _ _).mp hrun
  simp only [Bool.and_eq_true, decide_eq_true_eq] at hrun
  obtain ⟨⟨rfl, husername, hprivate⟩, hload⟩ := hrun
  obtain ⟨hfirst, hstored⟩ := unidentified_iff (Reachable.new c.world : Reachable env c)
  obtain ⟨before, stored, -, hid, ⟨husername', -, hprivate'⟩, -, hresume⟩ :=
    hstored "ada" identity.id d hr
  have hsame : identity = stored := by
    obtain ⟨name, id, privateKey⟩ := stored
    have hname : identity.username = name := husername.symm.trans husername'
    have hkey : identity.privateKey = privateKey :=
      Option.some.inj (hprivate.symm.trans hprivate')
    have hident : identity.id = id := hid.symm
    rw [← hname, ← hident, ← hkey]
  rw [hsame] at hload
  obtain ⟨e, hrestore, ⟨-, hidentity, -⟩, hstate⟩ := hresume d hload
  have hassigned : identity.id.isAssigned = true := by decide
  rw [if_pos hassigned] at hrestore hstate
  exact ⟨env, c, d, e, identity.id, .new _, rfl, (hfirst.mp rfl).1, hr, hrestore,
    hidentity.trans hid, hstate⟩

/-- The server gives no identity, and the session does not show it. -/
theorem registered_without_identity :
    ∃ c d : Client (List Stream), Reachable inTurn c ∧
      (perform inTurn (.register "ada")).Returns c (.ok (.id .unassigned)) d ∧
      d.session.state = .registered ∧ d.session.id.isAssigned = false := by
  let c : Client (List Stream) := .new
    [heedful [.data ([3, 52, 8, 16, 0, 0, 0] ++ List.replicate 16 0)]]
  have hrun : (Action.ended (perform inTurn (.register "ada") c)).any (fun p =>
      decide (p.1 = .ok (.id .unassigned)) && decide (p.2.session.state = .registered) &&
        !p.2.session.id.isAssigned) = true := by
    decide +kernel
  obtain ⟨⟨r, d⟩, hr, hrun⟩ := (Option.any_eq_true _ _).mp hrun
  simp only [Bool.and_eq_true, decide_eq_true_eq, Bool.not_eq_true'] at hrun
  obtain ⟨⟨rfl, hstate⟩, hnone⟩ := hrun
  exact ⟨c, d, .new _, hr, hstate, hnone⟩

end Courier.Client
