import Courier.Proofs.Client.Totals

namespace Courier.Client

variable {ω : Type} {env : Environment ω} {c d : Client ω}

/-- How asking for a session key can end. -/
inductive KeyEnding where
  /-- No request is made. -/
  | unasked
  /-- The round trip fails. -/
  | unanswered
  /-- The server does not recognise the client. -/
  | denied
  /-- A key comes that cannot be used. -/
  | unusable
  | installed
  deriving DecidableEq

/-- What is done for the request, and the session then: nothing, or the public key is derived and
kept, by an exchange of keys that finds none. -/
inductive Prepares (op : Operation) (s : Session) : List Act → Session → Prop where
  | nothing : Prepares op s [] s
  | derived {privateKey : PrivateKey} {key : PublicKey} :
    op = .exchangeKeys → s.publicKey = none → s.privateKey = some privateKey →
      Prepares op s [.derivedPublicKey privateKey (.ok key)] (s.withPublicKey key)

/-- From `c` to the world `w` the request is prepared and the round trip held, and that is all. -/
structure Asks (env : Environment ω) (op : Operation) (c : Client ω) (acts : List Act) (s : Session)
    (trip : RoundTrip) (w : ω) : Prop where
  prepares : ∃ before, acts = before ++ [.roundTrip trip] ∧ Prepares op c.session before s
  held : trip.Held env
  history : History env c.world acts w

/-- What it means for `op` to end in a way, when it comes back from `c` with `r` and leaves `d`. -/
def EndedBy (env : Environment ω) (op : Operation) (c : Client ω) (r : Except TransferError Reply)
    (d : Client ω) : KeyEnding → Prop
  | .unasked =>
    d.session = c.session ∧
      (c.session.id.isAssigned = false ∧ r = .error .notRegistered ∧ d.journal = c.journal ∧
          d.world = c.world ∨
        op = .exchangeKeys ∧ c.session.publicKey = none ∧ ∃ privateKey e,
          c.session.privateKey = some privateKey ∧
          env.derivePublicKey privateKey c.world = (.error e, d.world) ∧
          d.journal = c.journal ++ [.derivedPublicKey privateKey (.error e)] ∧ r = .error e)
  | .unanswered => ∃ acts trip e,
    Asks env op c acts d.session trip d.world ∧ d.journal = c.journal ++ acts ∧
      trip.outcome = .error (.failed e) ∧ r = .error e
  | .denied => ∃ trip,
    Asks env op c [.roundTrip trip] c.session trip d.world ∧
      d.journal = c.journal ++ [.roundTrip trip] ∧ trip.IsDenied ∧ op = .reconnect ∧
      r = .error .reconnectionDenied ∧
      d.session.symmetricKey = none ∧ d.session.state = .denied
  | .unusable => ∃ acts s trip w wrapped privateKey y e,
    Asks env op c acts s trip w ∧ trip.BringsKey wrapped ∧
      c.session.privateKey = some privateKey ∧
      env.unwrapKey privateKey wrapped w = (y, d.world) ∧
      d.journal = c.journal ++ acts ++ [.unwrappedKey privateKey wrapped y] ∧
      (y = .error e ∨ ∃ material, y = .ok material ∧ material.length ≠ 16 ∧
        e = .invalidKeyMaterial material.length) ∧
      r = .error e ∧ d.session.symmetricKey = none ∧ d.session.state = .registered
  | .installed => ∃ acts s trip w wrapped privateKey key,
    Asks env op c acts s trip w ∧ trip.BringsKey wrapped ∧
      c.session.privateKey = some privateKey ∧
      env.unwrapKey privateKey wrapped w = (.ok (SymmetricKey.bytes key), d.world) ∧
      d.journal = c.journal ++ acts ++ [.unwrappedKey privateKey wrapped (.ok key.bytes)] ∧
      r = .ok .done ∧ d.session.symmetricKey = some key ∧ d.session.state = .keyEstablished

/-- The way in which it ended, told by the round trips held and the result. -/
def endingOf (held : List RoundTrip) (r : Except TransferError Reply) : KeyEnding :=
  match held, r with
  | [], _ => .unasked
  | _ :: _, .ok _ => .installed
  | trip :: _, .error _ =>
    match trip.outcome with
    | .error _ => .unanswered
    | .ok (some (.reconnectionDenied _)) => .denied
    | .ok _ => .unusable

theorem Asks.trips_eq {op : Operation} {acts : List Act} {s : Session} {trip : RoundTrip} {w : ω}
    (h : Asks env op c acts s trip w) : trips acts = [trip] := by
  obtain ⟨before, rfl, hprepares⟩ := h.prepares
  cases hprepares with
  | nothing | derived => rfl

theorem EndedBy.eq_endingOf {op : Operation} {r : Except TransferError Reply}
    {ending : KeyEnding} (h : EndedBy env op c r d ending) :
    ∃ held, trips d.journal = trips c.journal ++ held ∧ ending = endingOf held r := by
  cases ending with
  | unasked =>
    obtain ⟨-, ⟨-, -, hj, -⟩ | ⟨-, -, privateKey, e, -, -, hj, -⟩⟩ := h
    · exact ⟨[], by rw [hj, List.append_nil], rfl⟩
    · exact ⟨[], by rw [hj, trips_append]; rfl, rfl⟩
  | unanswered =>
    obtain ⟨acts, trip, e, hasks, hj, houtcome, rfl⟩ := h
    refine ⟨[trip], by rw [hj, trips_append, hasks.trips_eq], ?_⟩
    simp only [endingOf, houtcome]
  | denied =>
    obtain ⟨trip, hasks, hj, ⟨echoed, houtcome⟩, -, rfl, -⟩ := h
    refine ⟨[trip], by rw [hj, trips_append, hasks.trips_eq], ?_⟩
    simp only [endingOf, houtcome]
  | unusable =>
    obtain ⟨acts, s, trip, w, wrapped, privateKey, y, e, hasks, hbrings, -, -, hj, -, rfl, -⟩ := h
    refine ⟨[trip], by rw [hj, trips_append, trips_append, hasks.trips_eq]; exact List.append_nil _, ?_⟩
    cases hbrings with
    | exchanged _ houtcome | recognised _ houtcome => simp only [endingOf, houtcome]
  | installed =>
    obtain ⟨acts, s, trip, w, wrapped, privateKey, key, hasks, -, -, -, hj, rfl, -⟩ := h
    exact ⟨[trip], by rw [hj, trips_append, trips_append, hasks.trips_eq]; exact List.append_nil _, rfl⟩

theorem EndedBy.unique {op : Operation} {r : Except TransferError Reply}
    {ending other : KeyEnding} (h : EndedBy env op c r d ending)
    (h' : EndedBy env op c r d other) : other = ending := by
  obtain ⟨held, htrips, rfl⟩ := h.eq_endingOf
  obtain ⟨held', htrips', rfl⟩ := h'.eq_endingOf
  rw [List.append_cancel_left (htrips'.symm.trans htrips)]

theorem ofBytes_eq_error {y : Except TransferError Bytes} {e : TransferError}
    (h : y >>= SymmetricKey.ofBytes = .error e) :
    y = .error e ∨ ∃ material, y = .ok material ∧ material.length ≠ 16 ∧
      e = .invalidKeyMaterial material.length := by
  rcases bind_eq_error.mp h with rfl | ⟨material, rfl, hkey⟩
  · exact .inl rfl
  · unfold SymmetricKey.ofBytes at hkey
    split at hkey
    · cases hkey
    · rename_i hlength
      cases hkey
      exact .inr ⟨material, rfl, hlength, rfl⟩

/-- What follows the round trip is one unwrapping of the key that came. -/
theorem Notes.split_last {before : List Act} {trip : RoundTrip} {act : Act}
    (h : Notes env c (before ++ [.roundTrip trip, act]) d) :
    ∃ w, History env c.world (before ++ [.roundTrip trip]) w ∧ act.Occurs env w d.world ∧
      d.journal = c.journal ++ (before ++ [.roundTrip trip]) ++ [act] := by
  have hsplit : before ++ [.roundTrip trip, act] = before ++ [.roundTrip trip] ++ [act] := by simp
  obtain ⟨hj, hhistory⟩ := h
  rw [hsplit] at hj hhistory
  obtain ⟨w, hasked, hlast⟩ := History.append_iff.mp hhistory
  exact ⟨w, hasked, History.singleton_iff.mp hlast, by rw [hj, ← List.append_assoc]⟩

/-- A request that is made ends as its course does. -/
theorem KeyCourse.endedBy {op : Operation} {request : Request} {s : Session} {before : List Act}
    {m : Client ω} {deeds : List Deed} {r : Except TransferError Unit}
    (h : KeyCourse s request deeds (r.mapError .failed)) (hm : m.session = s)
    (hbefore : Notes env c before m) (hd : Does env m deeds d)
    (hprepares : Prepares op c.session before s) (howner : c.session.SameOwner s)
    (hid : c.session.id.isAssigned) (hprivate : c.session.privateKey.isSome)
    (hop : ∀ id name, request = .reconnect id name → op = .reconnect) :
    ∃ ending, EndedBy env op c (r.map fun _ => .done) d ending := by
  have hnotes := hbefore.append hd.notes
  have hheld := hd.held
  have hsession := hd.session_eq
  rw [hm] at hsession
  generalize hy : (r.mapError .failed : Except Stop _) = y at h
  cases h with
  | @lost trip stop hrequest houtcome =>
    cases r <;> cases hy
    rw [← show d.session = s from hsession] at hprepares
    exact ⟨.unanswered, _, trip, _, ⟨⟨before, rfl, hprepares⟩, hheld trip (.head _), hnotes.history⟩,
      hnotes.journal_eq, houtcome, rfl⟩
  | @denied trip id name hrequest hreconnect hdenied =>
    cases r <;> cases hy
    obtain rfl := hop id name hreconnect
    cases hprepares with
    | derived he => cases he
    | nothing =>
      refine ⟨.denied, trip, ⟨⟨[], rfl, .nothing⟩, hheld trip (.head _), hnotes.history⟩,
        hnotes.journal_eq, hdenied, rfl, rfl, ?_, ?_⟩
      · rw [hsession]
        rfl
      · rw [hsession]
        rfl
  | @taken trip wrapped deeds y hrequest hbrings htake =>
    cases htake with
    | @ownerless echoed e hnone =>
      rw [← howner.privateKey_eq] at hprivate
      obtain ⟨privateKey, hp⟩ := Session.exists_requirePrivateKey hprivate
      cases hp.symm.trans hnone
    | @unusable echoed privateKey y e hp hye =>
      cases r <;> cases hy
      have hdropped : d.session = s.dropKey := by
        rw [hsession, Deed.left_noted, Deed.left_append, Deed.left_echo]
        rfl
      rw [Deed.acts_noted, Deed.acts_append, Deed.acts_echo] at hnotes
      obtain ⟨w, hasked, hunwrap, hj⟩ := hnotes.split_last
      have hp' := howner.privateKey_eq.symm.trans (Session.privateKey_of_require hp)
      refine ⟨.unusable, _, s, trip, w, wrapped, privateKey, y, e,
        ⟨⟨before, rfl, hprepares⟩, hheld trip (.head _), hasked⟩, hbrings, hp', hunwrap, hj,
        ofBytes_eq_error hye, rfl, ?_, ?_⟩
      · rw [hdropped]
        rfl
      · rw [← howner.id_eq] at hid
        rw [hdropped, Session.dropKey, if_pos hid]
    | @installed echoed privateKey key news hp =>
      cases r <;> cases hy
      have hinstalled : d.session = s.installKey key := by
        rw [hsession, Deed.left_noted, Deed.left_append, Deed.left_echo]
        rfl
      rw [Deed.acts_noted, Deed.acts_append, Deed.acts_echo] at hnotes
      obtain ⟨w, hasked, hunwrap, hj⟩ := hnotes.split_last
      have hp' := howner.privateKey_eq.symm.trans (Session.privateKey_of_require hp)
      refine ⟨.installed, _, s, trip, w, wrapped, privateKey, key,
        ⟨⟨before, rfl, hprepares⟩, hheld trip (.head _), hasked⟩, hbrings, hp', hunwrap, hj,
        rfl, ?_, ?_⟩
      · rw [hinstalled]
        rfl
      · rw [hinstalled]
        rfl

theorem ExchangeCourse.endedBy {deeds : List Deed} {r : Except TransferError Unit}
    (h : ExchangeCourse c.session deeds (r.mapError .failed)) (hd : Does env c deeds d)
    (hc : c.session.IsSound) :
    ∃ ending, EndedBy env .exchangeKeys c (r.map fun _ => .done) d ending := by
  have hsession := hd.session_eq
  generalize hy : (r.mapError .failed : Except Stop _) = y at h
  cases h with
  | unregistered hid =>
    cases r <;> cases hy
    cases hd
    exact ⟨.unasked, rfl, .inl ⟨hid, rfl, rfl, rfl⟩⟩
  | unasked hid hsource =>
    obtain ⟨privateKey, hp⟩ := Session.exists_requirePrivateKey (hc.owned hid)
    cases hsource with
    | ownerless _ hnone => cases hp.symm.trans hnone
    | @underived privateKey e hnone hp =>
      cases r <;> cases hy
      have hderive := History.singleton_iff.mp hd.notes.history
      exact ⟨.unasked, hsession, .inr ⟨rfl, hnone, privateKey, e, Session.privateKey_of_require hp,
        hderive, hd.notes.journal_eq, rfl⟩⟩
  | @asked ds es key y hid hsource hcourse =>
    obtain ⟨m, hds, hes⟩ := hd.of_append
    rw [← hy] at hcourse
    have hprepares : Prepares .exchangeKeys c.session (Deed.acts ds) (Deed.left c.session ds) := by
      cases hsource with
      | cached => exact .nothing
      | derived hnone hp => exact .derived rfl hnone (Session.privateKey_of_require hp)
    exact hcourse.endedBy hds.session_eq hds.notes hes hprepares hsource.sameOwner hid
      (hc.owned hid) (by nofun)

theorem ReconnectCourse.endedBy {deeds : List Deed} {r : Except TransferError Unit}
    (h : ReconnectCourse c.session deeds (r.mapError .failed)) (hd : Does env c deeds d)
    (hc : c.session.IsSound) :
    ∃ ending, EndedBy env .reconnect c (r.map fun _ => .done) d ending := by
  generalize hy : (r.mapError .failed : Except Stop _) = y at h
  cases h with
  | unregistered hid =>
    cases r <;> cases hy
    cases hd
    exact ⟨.unasked, rfl, .inl ⟨hid, rfl, rfl, rfl⟩⟩
  | asked hid hcourse =>
    rw [← hy] at hcourse
    exact hcourse.endedBy rfl (.nil rfl rfl) hd .nothing (.refl _) hid (hc.owned hid)
      fun _ _ _ => rfl

/-- Asking for a key leaves the owner of the session and the file to send. -/
theorem ExchangeCourse.keeps {s : Session} {deeds : List Deed} {y : Except Stop Unit}
    (h : ExchangeCourse s deeds y) : s.SameOwner (Deed.left s deeds) ∧
      (Deed.left s deeds).pendingFile = s.pendingFile := by
  have hkept {ds : List Deed} {z : Except Stop PublicKey} (hsource : KeySource s ds z) :
      (Deed.left s ds).pendingFile = s.pendingFile := by
    rcases hsource.left_eq with hsame | ⟨-, key, hkey⟩
    · rw [hsame]
    · rw [hkey]
      rfl
  cases h with
  | unregistered => exact ⟨.refl s, rfl⟩
  | unasked _ hsource => exact ⟨hsource.sameOwner, hkept hsource⟩
  | asked _ hsource hcourse =>
    obtain ⟨howner, -, hpending⟩ := hcourse.keeps
    rw [Deed.left_append]
    exact ⟨hsource.sameOwner.trans howner, hpending.trans (hkept hsource)⟩

theorem ReconnectCourse.keeps {s : Session} {deeds : List Deed} {y : Except Stop Unit}
    (h : ReconnectCourse s deeds y) : s.SameOwner (Deed.left s deeds) ∧
      (Deed.left s deeds).pendingFile = s.pendingFile := by
  cases h with
  | unregistered => exact ⟨.refl s, rfl⟩
  | asked _ hcourse =>
    obtain ⟨howner, -, hpending⟩ := hcourse.keeps
    exact ⟨howner, hpending⟩

end Courier.Client
