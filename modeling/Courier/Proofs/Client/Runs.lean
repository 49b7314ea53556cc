import Courier.Proofs.Client.SessionInvariant

namespace Courier

/-- An operation and its result. -/
abbrev Step := Operation × Except TransferError Reply

namespace Client

variable {ω : Type} {env : Environment ω} {c m d : Client ω}

/-- From `c` to `d` the operations come back one after the other, each with its result. -/
inductive Runs (env : Environment ω) : Client ω → List Step → Client ω → Prop where
  | nil {c : Client ω} : Runs env c [] c
  | cons {c m d : Client ω} {op : Operation} {r : Except TransferError Reply}
      {history : List Step} :
    (perform env op).Returns c r m → Runs env m history d → Runs env c ((op, r) :: history) d

theorem Runs.append {first last : List Step} (h : Runs env c first m) (h' : Runs env m last d) :
    Runs env c (first ++ last) d := by
  induction h with
  | nil => exact h'
  | cons hop _ ih => exact .cons hop (ih h')

/-- Which operations are asked for decides the whole run. -/
theorem Runs.unique {history history' : List Step} {d' : Client ω} (h : Runs env c history d)
    (h' : Runs env c history' d') (hops : history'.map Prod.fst = history.map Prod.fst) :
    history' = history ∧ d' = d := by
  induction h generalizing history' with
  | nil =>
    cases h' with
    | nil => exact ⟨rfl, rfl⟩
    | cons _ _ => cases hops
  | @cons _ _ _ op r _ hop _ ih =>
    cases h' with
    | nil => cases hops
    | @cons _ _ _ op' r' _ hop' hrest =>
      obtain ⟨rfl, hrestops⟩ : op' = op ∧ _ := List.cons.inj hops
      obtain ⟨rfl, rfl⟩ := Action.returns_unique hop hop'
      obtain ⟨rfl, rfl⟩ := ih hrest hrestops
      exact ⟨rfl, rfl⟩

/-- The run that operations make, unless one of them waits for ever. -/
def run (env : Environment ω) : List Operation → Client ω → Option (List Step × Client ω)
  | [], c => some ([], c)
  | op :: ops, c =>
    (Action.ended (perform env op c)).bind fun p =>
      (run env ops p.2).map fun q => ((op, p.1) :: q.1, q.2)

theorem run_eq_some_iff {ops : List Operation} {history : List Step} :
    run env ops c = some (history, d) ↔ history.map Prod.fst = ops ∧ Runs env c history d := by
  induction ops generalizing c history with
  | nil =>
    constructor
    · rintro ⟨⟩
      exact ⟨rfl, .nil⟩
    · rintro ⟨hops, h⟩
      cases h with
      | nil => rfl
      | cons => cases hops
  | cons op ops ih =>
    constructor
    · intro h
      obtain ⟨⟨r, m⟩, hop, h⟩ := Option.bind_eq_some_iff.mp h
      obtain ⟨⟨rest, e⟩, hrest, h⟩ := Option.map_eq_some_iff.mp h
      cases h
      obtain ⟨rfl, hruns⟩ := ih.mp hrest
      exact ⟨rfl, .cons hop hruns⟩
    · rintro ⟨hops, h⟩
      cases h with
      | nil => cases hops
      | @cons _ m _ op' r rest hop hrest =>
        obtain ⟨hfirst, hrestops⟩ : op' = op ∧ _ := List.cons.inj hops
        subst hfirst
        have hended : Action.ended (perform env op' c) = some (r, m) := hop
        rw [run, hended, Option.bind_some, ih.mpr ⟨hrestops, hrest⟩]
        rfl

/-- A client is reachable just if it is what a run leaves of a new one. -/
theorem reachable_iff_runs : Reachable env d ↔ ∃ world history, Runs env (.new world) history d := by
  constructor
  · intro h
    induction h with
    | new world => exact ⟨world, [], .nil⟩
    | step _ hop ih =>
      obtain ⟨world, history, hruns⟩ := ih
      exact ⟨world, _, hruns.append (.cons hop .nil)⟩
  · rintro ⟨world, history, hruns⟩
    have hc : Reachable env (.new world) := .new world
    generalize Client.new world = c at hruns hc
    induction hruns with
    | nil => exact hc
    | cons hop _ ih => exact ih (.step hc hop)

end Client

end Courier
