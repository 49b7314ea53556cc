import Courier.Proofs.Client.Conversation
import Courier.Proofs.Client.Likeness
import Courier.Proofs.Client.Runs

namespace Courier.Client

open Courier.Action Courier.Correspondence

variable {ω ω' : Type} {W : ω → ω' → Prop} {env : Environment ω} {env' : Environment ω'}

theorem companions_of_alike (henv : env.Alike W env') :
    Companions .likeness (Alike W) env env' where
  session h := session_matches_likeness.mpr h.session_eq
  metrics_eq h := h.metrics_eq
  maxRetries_eq := henv.maxRetries_eq
  changeSession hfg := by
    apply changeSession_keeps
    intro s
    exact session_matches_likeness.mp (hfg s s (session_matches_likeness.mpr rfl))
  count := count_keeps
  report e := report_keeps rfl
  reportConfirmed hd := by
    apply report_keeps
    rw [Event.essence?, Event.essence?, hd.attempts_eq, hd.checksum_eq]
  noteEcho _ := noteEcho_keeps _ _
  ask hr expected := by
    cases eq_of_request_matches_likeness hr
    exact (ask_keeps henv _ expected).mono fun _ _ => matches_likeness_of_alike
  tell hr := by
    cases eq_of_request_matches_likeness hr
    exact tell_keeps henv _
  generateKeys := (consult_keeps henv.generateKeys _).mono fun keys _ h => h ▸ ⟨rfl, rfl⟩
  derivePublicKey hkey := by
    cases hkey
    exact consult_keeps (henv.derivePublicKey _) _
  unwrapKey wrapped hkey := by
    cases hkey
    exact (consult_keeps (henv.unwrapKey _ wrapped) _).mono fun _ _ h => h ▸ .same _
  encrypt content hkey := by
    cases hkey
    exact consult_keeps (henv.encrypt _ content) _
  loadIdentity := by
    apply (consult_keeps henv.loadIdentity _).mono
    intro found _ h
    subst h
    cases found with
    | none => exact .none
    | some identity => exact .some (identity_matches_likeness.mpr rfl)
  storeIdentity hidentity := by
    cases identity_matches_likeness.mp hidentity
    exact consult_keeps (henv.storeIdentity _) _
  loadFile path := consult_keeps (henv.loadFile path) _

/-- Clients alike come to the same end of each operation and stay alike. -/
theorem perform_keeps (henv : env.Alike W env') (op : Operation) :
    Keeps (Alike W) Reply.Alike (perform env op) (perform env' op) :=
  ((companions_of_alike henv).perform op).mono fun _ _ => alike_of_matches_likeness

/-- The same operation with the same result, but for what the server repeats of an upload. -/
def StepsAlike (s s' : Step) : Prop :=
  s.1 = s'.1 ∧ Replies Reply.Alike s.2 s'.2

theorem map_fst_of_alike {history history' : List Step}
    (h : List.Forall₂ StepsAlike history history') :
    history.map Prod.fst = history'.map Prod.fst := by
  induction h with
  | nil => rfl
  | cons hstep _ ih => rw [List.map_cons, List.map_cons, hstep.1, ih]

theorem Runs.alike (henv : env.Alike W env') {c d : Client ω} {c' : Client ω'}
    {history : List Step} (h : Runs env c history d) (hc : Alike W c c') :
    ∃ history' d', Runs env' c' history' d' ∧ List.Forall₂ StepsAlike history history' ∧
      Alike W d d' := by
  induction h generalizing c' with
  | nil => exact ⟨[], c', .nil, .nil, hc⟩
  | cons hop _ ih =>
    obtain ⟨r', m', hop', hr, hm⟩ := (perform_keeps henv _).returns hc hop
    obtain ⟨history', d', hruns, hsteps, hd⟩ := ih hm
    exact ⟨_, d', .cons hop' hruns, .cons ⟨rfl, hr⟩ hsteps, hd⟩

/-- Next to surroundings that differ in no more than what responses have for information only, the
same operations make one run, with the same results, and leave the client the same. An operation that
then waits for ever next to one waits for ever next to the other. -/
theorem runs_indifferent (henv : env.Alike W env') {w : ω} {w' : ω'} (hw : W w w')
    {history : List Step} {d : Client ω} (h : Runs env (.new w) history d) :
    ∃ history' d', Runs env' (.new w') history' d' ∧
      List.Forall₂ StepsAlike history history' ∧ Alike W d d' ∧
      (∀ other e, Runs env' (.new w') other e → other.map Prod.fst = history.map Prod.fst →
        other = history' ∧ e = d') ∧
      ∀ op, ended (perform env op d) = none ↔ ended (perform env' op d') = none := by
  obtain ⟨history', d', hruns, hsteps, hd⟩ := h.alike henv (alike_new hw)
  refine ⟨history', d', hruns, hsteps, hd, fun other e hother hops => ?_, fun op => ?_⟩
  · exact hruns.unique hother (hops.trans (map_fst_of_alike hsteps))
  · exact (perform_keeps henv op).hangs_iff hd

theorem inTurn_alike : inTurn.Alike (List.Forall₂ Stream.Alike) inTurn where
  connect := by
    intro w w' h
    cases h with
    | nil => exact ⟨.error, .nil⟩
    | cons hs hrest => exact ⟨.ok hs, hrest⟩
  generateKeys _ _ h := ⟨rfl, h⟩
  derivePublicKey _ _ _ h := ⟨rfl, h⟩
  unwrapKey _ _ _ _ h := ⟨rfl, h⟩
  encrypt _ _ _ _ h := ⟨rfl, h⟩
  loadIdentity _ _ h := ⟨rfl, h⟩
  storeIdentity _ _ _ h := ⟨rfl, h⟩
  loadFile _ _ _ h := ⟨rfl, h⟩
  timeouts_eq := rfl
  maxRetries_eq := rfl

/-- A server and another one of a foreign version, which echoes no identity, takes an empty file for
one of five bytes and pads its responses with other bytes: a client registers, gets a key and
transfers the file with either. -/
theorem runs_indifferent_foreign :
    ∃ (world world' : List Stream) (history history' : List Step) (d d' : Client (List Stream)),
      world ≠ world' ∧ Runs inTurn (.new world) history d ∧ Runs inTurn (.new world') history' d' ∧
      List.Forall₂ StepsAlike history history' ∧ Alike (List.Forall₂ Stream.Alike) d d' ∧
      d.session.state = .done := by
  let id : ClientId := ⟨List.replicate 16 7, rfl⟩
  let key : Bytes := List.replicate 16 7
  let answer (p : ResponsePayload) (tail : Bytes) : Stream :=
    heedful [.data ((Response.ofPayload p).encode ++ tail)]
  let foreign (p : ResponsePayload) (tail : Bytes) : Stream :=
    heedful [.data (({ (Response.ofPayload p).header with version := 9 } : ResponseHeader).encode ++
      p.encode ++ tail)]
  have halike {p q : ResponsePayload} (h : p.Alike q) (hsize : p.size < UInt32.size)
      {tail tail' : Bytes} (ht : tail.length = tail'.length) :
      (answer p tail).Alike (foreign q tail') := by
    have hbytes := Response.alike_of_payloads h hsize ht 9
    refine ⟨rfl, .cons (.data hbytes.length_eq) .nil, ?_⟩
    simpa [answer, foreign, heedful, Stream.incoming, ReadEvent.bytes] using hbytes
  let world : List Stream :=
    [answer (.registrationSuccess id) [], answer (.keyExchange id key) [1, 2],
      answer (.fileDelivered id 0 ⟨"a"⟩ 0) [], answer (.messageDelivered id) [3]]
  let world' : List Stream :=
    [foreign (.registrationSuccess id) [], foreign (.keyExchange .unassigned key) [0, 0],
      foreign (.fileDelivered .unassigned 5 ⟨"b"⟩ 0) [], foreign (.messageDelivered .unassigned) [0]]
  have hworld : List.Forall₂ Stream.Alike world world' :=
    .cons (halike (.registrationSuccess id) (by decide) rfl)
      (.cons (halike (.keyExchange id .unassigned key) (by decide) rfl)
        (.cons (halike (.fileDelivered id .unassigned 0 5 ⟨"a"⟩ ⟨"b"⟩ 0) (by decide) rfl)
          (.cons (halike (.messageDelivered id .unassigned) (by decide) rfl) .nil)))
  have hrun : (ended (perform inTurn (.register "ada") (.new world))).any (fun p₁ =>
      (ended (perform inTurn .exchangeKeys p₁.2)).any fun p₂ =>
        (ended (perform inTurn (.transfer [0x61]) p₂.2)).any fun p₃ =>
          decide (p₃.2.session.state = .done)) = true := by
    decide +kernel
  obtain ⟨⟨r₁, c₁⟩, h₁, hrun⟩ := (Option.any_eq_true _ _).mp hrun
  obtain ⟨⟨r₂, c₂⟩, h₂, hrun⟩ := (Option.any_eq_true _ _).mp hrun
  obtain ⟨⟨r₃, c₃⟩, h₃, hrun⟩ := (Option.any_eq_true _ _).mp hrun
  have hruns : Runs inTurn (.new world)
      [(.register "ada", r₁), (.exchangeKeys, r₂), (.transfer [0x61], r₃)] c₃ :=
    .cons h₁ (.cons h₂ (.cons h₃ .nil))
  obtain ⟨history', d', hruns', hsteps, hd, -, -⟩ := runs_indifferent inTurn_alike hworld hruns
  exact ⟨world, world', _, history', c₃, d', by decide, hruns, hruns', hsteps, hd,
    of_decide_eq_true hrun⟩

end Courier.Client
