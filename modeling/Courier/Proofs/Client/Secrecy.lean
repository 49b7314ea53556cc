import Courier.Proofs.Client.Runs
import Courier.Proofs.Rehearsal.Veil

namespace Courier.Client

open Courier.Action Courier.Correspondence

variable {ω ω' : Type} {K : PrivateKey → PrivateKey → Prop} {S : SymmetricKey → SymmetricKey → Prop}
  {W : ω → ω' → Prop} {env : Environment ω} {env' : Environment ω'}

section Operations

/-- Material of one length is a session key on both sides or on neither. -/
theorem ofBytes_veiled {material material' : Bytes} (hl : material.length = material'.length)
    (hS : ∀ k k', SymmetricKey.ofBytes material = .ok k → SymmetricKey.ofBytes material' = .ok k' →
      S k k') :
    Replies S (SymmetricKey.ofBytes material) (SymmetricKey.ofBytes material') := by
  by_cases h : material.length = 16
  · have hk : SymmetricKey.ofBytes material = .ok ⟨material, h⟩ := dif_pos h
    have hk' : SymmetricKey.ofBytes material' = .ok ⟨material', hl ▸ h⟩ := dif_pos (hl ▸ h)
    rw [hk, hk']
    exact .ok (hS _ _ hk hk')
  · unfold SymmetricKey.ofBytes
    rw [dif_neg h, dif_neg (hl ▸ h), hl]
    exact .error

theorem companions_of_veiled (henv : env.Veiled K S W env') :
    Companions (.veil K S) (Veiled K S W) env env' where
  session h := session_matches_veil.mpr h.session
  metrics_eq h := h.metrics_eq
  maxRetries_eq := henv.maxRetries_eq
  changeSession hfg := by
    apply changeSession_veiled
    intro s t hst
    exact session_matches_veil.mp (hfg s t (session_matches_veil.mpr hst))
  count := count_veiled
  report := report_veiled
  reportConfirmed hd := by
    obtain ⟨hfile, -⟩ := Prod.mk.inj hd.repeated
    rw [hfile, hd.attempts_eq, hd.checksum_eq]
    exact report_veiled _
  noteEcho hid := by
    cases hid
    exact noteEcho_veiled _
  ask hr expected := by
    apply (ask_veiled henv (request_veiled_of_matches_veil hr) expected).mono
    intro p _ h
    exact h ▸ payload_matches_veil p
  tell hr := tell_veiled henv (request_veiled_of_matches_veil hr)
  generateKeys := by
    apply (consult_veiled henv.generateKeys fun _ _ => .generatedKeys).mono
    intro keys keys' h
    exact ⟨trivial, h⟩
  derivePublicKey hkey :=
    consult_veiled (henv.derivePublicKey _ _ hkey) fun _ _ => .derivedPublicKey hkey
  unwrapKey wrapped hkey := by
    apply (consult_veiled (henv.unwrapKey _ _ wrapped hkey) fun _ _ hy => ?_).mono
    · intro material material' h
      exact ofBytes_veiled h.1 h.2
    · exact .unwrappedKey hkey (hy.imp fun _ _ h => h.1)
  encrypt content hkey := consult_veiled (henv.encrypt _ _ content hkey) fun _ _ => .encrypted hkey
  loadIdentity := by
    apply (consult_veiled henv.loadIdentity fun _ _ => .loadedIdentity).mono
    intro found found' h
    cases h with
    | none => exact .none
    | some hidentity => exact .some (identity_matches_veil.mpr hidentity)
  storeIdentity hidentity := by
    have hveiled := identity_matches_veil.mp hidentity
    apply consult_veiled (henv.storeIdentity _ _ hveiled)
    intro y y' hy
    cases hy.eq
    exact .storedIdentity y hveiled
  loadFile path := by
    apply consult_veiled (henv.loadFile path)
    intro y y' hy
    cases hy.eq
    exact .loadedFile path y

/-- What an operation comes to does not tell what is veiled, and it is veiled still. -/
theorem perform_veiled (henv : env.Veiled K S W env') (op : Operation) :
    Keeps (Veiled K S W) Eq (perform env op) (perform env' op) :=
  ((companions_of_veiled henv).perform op).mono fun _ _ => eq_of_reply_matches_veil

end Operations

section Running

/-- The requests differ in no more than what is veiled in them, and what either peer was given since
`before` are the first bytes, as many of them, of what goes over the stream for its request. -/
def SentAlike (t u : RoundTrip) : Prop :=
  t.request.Veiled u.request ∧ t.left.isSome = u.left.isSome ∧ ∃ before n,
    (∀ k ∈ t.left, k.stream.sent = (before ++ t.request.frames).take n) ∧
      ∀ l ∈ u.left, l.stream.sent = (before ++ u.request.frames).take n

theorem sentAlike_of_veiled {t u : RoundTrip} (h : t.Veiled u) : SentAlike t u := by
  cases h with
  | unconnected hr =>
    refine ⟨hr, rfl, [], 0, fun k hk => ?_, fun l hl => ?_⟩
    · exact absurd hk (Option.not_mem_none k)
    · exact absurd hl (Option.not_mem_none l)
  | @connected _ _ k _ _ _ hr hwithin =>
    obtain ⟨n, hsent, hsent'⟩ := hwithin.sent
    refine ⟨hr, rfl, k.stream.sent, n, ?_, ?_⟩
    · rintro _ ⟨⟩
      exact hsent
    · rintro _ ⟨⟩
      exact hsent'

theorem trips_sentAlike {acts acts' : List Act} (h : List.Forall₂ (Act.Veiled K S) acts acts') :
    List.Forall₂ SentAlike (trips acts) (trips acts') := by
  induction h with
  | nil => exact .nil
  | cons hact _ ih =>
    cases hact with
    | roundTrip htrip => exact .cons (sentAlike_of_veiled htrip) ih
    | _ => exact ih

/-- What was asked of the server, in order: each time the kind of the request, the identity in it and
the name. -/
def asked (acts : List Act) : List (RequestCode × ClientId × Name) :=
  (trips acts).map fun trip => (trip.request.code, trip.request.id, trip.request.name)

theorem asked_eq_of_sentAlike {acts acts' : List Act}
    (h : List.Forall₂ SentAlike (trips acts) (trips acts')) : asked acts = asked acts' := by
  unfold asked
  generalize trips acts = ts at h
  generalize trips acts' = us at h
  induction h with
  | nil => rfl
  | cons htu _ ih => rw [List.map_cons, List.map_cons, htu.1.head_eq, ih]

theorem Runs.veiled (henv : env.Veiled K S W env') {c d : Client ω} {c' : Client ω'}
    {history : List Step} (h : Runs env c history d) (hc : Veiled K S W c c') :
    ∃ d', Runs env' c' history d' ∧ Veiled K S W d d' := by
  induction h generalizing c' with
  | nil => exact ⟨c', .nil, hc⟩
  | cons hop _ ih =>
    obtain ⟨r', m', hop', hr, hm⟩ := (perform_veiled henv _).returns hc hop
    obtain rfl := hr.eq
    obtain ⟨d', hruns, hd⟩ := ih hm
    exact ⟨d', .cons hop' hruns, hd⟩

/-- Next to surroundings that differ in no more than secrets, the same operations make one run, with
the same results. It leaves the same log and the same counters; the server has been asked the same, and
given as many bytes, which differ only where a key or an encrypted content stands; and the session is
the same but for its keys. So it is wherever the next operation ends, and if it waits for ever on one
side it does on the other. -/
theorem runs_tell_no_secret (henv : env.Veiled K S W env') {w : ω} {w' : ω'} (hw : W w w')
    {history : List Step} {d : Client ω} (h : Runs env (.new w) history d) :
    ∃ d', Runs env' (.new w') history d' ∧
      d.log = d'.log ∧ d.metrics = d'.metrics ∧ asked d.journal = asked d'.journal ∧
      List.Forall₂ SentAlike (trips d.journal) (trips d'.journal) ∧
      d.session.Veiled K S d'.session ∧ Veiled K S W d d' ∧
      (∀ other e, Runs env' (.new w') other e → other.map Prod.fst = history.map Prod.fst →
        other = history ∧ e = d') ∧
      ∀ op, (ended (perform env op d) = none ↔ ended (perform env' op d') = none) ∧
        Veiled K S W ((perform env op).final d) ((perform env' op).final d') := by
  obtain ⟨d', hruns, hd⟩ := h.veiled henv (veiled_new hw)
  have hsent := trips_sentAlike hd.journal
  refine ⟨d', hruns, hd.log_eq, hd.metrics_eq, asked_eq_of_sentAlike hsent, hsent, hd.session, hd,
    fun other e hother hops => hruns.unique hother hops, fun op => ?_⟩
  exact ⟨(perform_veiled henv op).hangs_iff hd, (perform_veiled henv op).final hd⟩

end Running

end Courier.Client

namespace Courier.Rehearsal

open Courier.Action

section Twins

/-- A file, and keys that all come from one byte. -/
def Script.ofByte (byte : UInt8) : Script :=
  ⟨List.replicate 160 byte, byte :: List.replicate 31 0, [], [([0x61], [1, 2, 3])], .none⟩

def keyed (byte : UInt8) : Environment World :=
  (Script.ofByte byte).environment ⟨100, 50⟩ 3

theorem keyed_veiled (byte byte' : UInt8) :
    (keyed byte).Veiled SameLength (fun _ _ => True) World.Veiled (keyed byte') := by
  have hpublic : (Script.ofByte byte).publicKey.length = (Script.ofByte byte').publicKey.length :=
    List.length_replicate.trans List.length_replicate.symm
  have hprivate : (Script.ofByte byte).privateKey.length = (Script.ofByte byte').privateKey.length :=
    rfl
  exact environment_veiled hpublic hprivate rfl rfl rfl _ _

/-- A server that registers a client, gives it a key, takes a file and wants no more. -/
def obliging : World :=
  let id : ClientId := ⟨List.replicate 16 7, rfl⟩
  let answer (p : ResponsePayload) : Except TransferError Stream :=
    .ok (Client.heedful [.data (Response.ofPayload p).encode])
  ⟨[answer (.registrationSuccess id), answer (.keyExchange id (16 :: List.replicate 16 49)),
    answer (.fileDelivered id 3 ⟨"a"⟩ (Checksum.crc32 [1, 2, 3])), answer (.messageDelivered id)],
    none⟩

def errand : List Operation :=
  [.register "ada", .exchangeKeys, .transfer [0x61]]

/-- A client registers, gets a key and transfers a file, and so does one that has other keys: their
sessions differ, and nobody can tell. -/
theorem runs_tell_no_secret_twins :
    ∃ (history : List Step) (d d' : Client World),
      Client.Runs (keyed 1) (.new obliging) history d ∧
      Client.Runs (keyed 2) (.new obliging) history d' ∧
      d.session.state = .done ∧ d.session.privateKey ≠ d'.session.privateKey ∧
      d.session.publicKey ≠ d'.session.publicKey ∧
      d.session.symmetricKey ≠ d'.session.symmetricKey ∧
      d.log = d'.log ∧ d.metrics = d'.metrics ∧ Client.asked d.journal = Client.asked d'.journal := by
  let run (byte : UInt8) := Client.run (keyed byte) errand (.new obliging)
  have hdiffer : (run 1).any (fun p => (run 2).any fun p' =>
      decide (p.2.session.state = .done) &&
        decide (p.2.session.privateKey ≠ p'.2.session.privateKey) &&
        decide (p.2.session.publicKey ≠ p'.2.session.publicKey) &&
        decide (p.2.session.symmetricKey ≠ p'.2.session.symmetricKey)) = true := by
    decide +kernel
  obtain ⟨⟨history, d⟩, hrun, hdiffer⟩ := (Option.any_eq_true _ _).mp hdiffer
  obtain ⟨⟨history', e⟩, hrun', hdiffer⟩ := (Option.any_eq_true _ _).mp hdiffer
  simp only [Bool.and_eq_true, decide_eq_true_eq] at hdiffer
  obtain ⟨⟨⟨hdone, hprivate⟩, hpublic⟩, hsymmetric⟩ := hdiffer
  obtain ⟨hops, hruns⟩ := Client.run_eq_some_iff.mp hrun
  obtain ⟨hops', hruns'⟩ := Client.run_eq_some_iff.mp hrun'
  have hworld : obliging.Veiled obliging := ⟨rfl, .none⟩
  obtain ⟨d', htwin, hlog, hmetrics, hasked, -, -, -, hunique, -⟩ :=
    Client.runs_tell_no_secret (keyed_veiled 1 2) hworld hruns
  obtain ⟨-, rfl⟩ := hunique history' e hruns' (hops'.trans hops.symm)
  exact ⟨history, d, e, hruns, htwin, hdone, hprivate, hpublic, hsymmetric, hlog, hmetrics, hasked⟩

end Twins

end Courier.Rehearsal
