import Courier.Action

namespace Courier.Action

variable {σ α β : Type}

instance decidableEqResult [DecidableEq α] : DecidableEq (Except TransferError α)
  | .ok a, .ok b => decidable_of_iff (a = b) (by simp)
  | .error e, .error f => decidable_of_iff (e = f) (by simp)
  | .ok _, .error _ => isFalse (by simp)
  | .error _, .ok _ => isFalse (by simp)

/-- What a run came back with and what it left, unless it waits for ever. -/
def ended : EStateM.Result Stop σ α → Option (Except TransferError α × σ)
  | .ok a t => some (.ok a, t)
  | .error (.failed e) t => some (.error e, t)
  | .error .hung _ => none

theorem ended_ok (a : α) (t : σ) : ended (.ok a t : EStateM.Result Stop σ α) = some (.ok a, t) :=
  rfl

theorem ended_failed (e : TransferError) (t : σ) :
    ended (.error (.failed e) t : EStateM.Result Stop σ α) = some (.error e, t) :=
  rfl

/-- The step, begun in `s`, comes back with `r` and leaves `t`. -/
def Returns (x : Action σ α) (s : σ) (r : Except TransferError α) (t : σ) : Prop :=
  ended (x s) = some (r, t)

theorem returns_ok {x : Action σ α} {s t : σ} {a : α} :
    x.Returns s (.ok a) t ↔ x s = .ok a t := by
  unfold Returns
  rcases x s with ⟨b, u⟩ | ⟨_ | _, u⟩ <;> simp [ended]

theorem returns_error {x : Action σ α} {s t : σ} {e : TransferError} :
    x.Returns s (.error e) t ↔ x s = .error (.failed e) t := by
  unfold Returns
  rcases x s with ⟨b, u⟩ | ⟨_ | _, u⟩ <;> simp [ended]

theorem returns_unique {x : Action σ α} {s t t' : σ} {r r' : Except TransferError α}
    (h : x.Returns s r t) (h' : x.Returns s r' t') : r = r' ∧ t = t' := by
  have he := h.symm.trans h'
  simpa using he

@[simp] theorem returns_ofExcept {s t : σ} {r y : Except TransferError α} :
    (ofExcept y : Action σ α).Returns s r t ↔ r = y ∧ t = s := by
  cases y <;> simp [Returns, ofExcept, ended, eq_comm]

@[simp] theorem returns_pure {s t : σ} {r : Except TransferError α} {a : α} :
    (pure a : Action σ α).Returns s r t ↔ r = .ok a ∧ t = s :=
  returns_ofExcept (y := .ok a)

@[simp] theorem returns_modify {s t : σ} {r : Except TransferError Unit} {f : σ → σ} :
    (modify f : Action σ PUnit).Returns s r t ↔ r = .ok () ∧ t = f s :=
  (returns_ofExcept (y := .ok ()) (s := f s) :)

@[simp] theorem returns_get_bind {s t : σ} {r : Except TransferError β} {f : σ → Action σ β} :
    (get >>= f : Action σ β).Returns s r t ↔ (f s).Returns s r t :=
  Iff.rfl

/-- The first step fails, or the second one goes on from where the first came to. -/
theorem returns_bind {x : Action σ α} {f : α → Action σ β} {s t : σ}
    {r : Except TransferError β} :
    (x >>= f).Returns s r t ↔
      (∃ a u, x.Returns s (.ok a) u ∧ (f a).Returns u r t) ∨
        ∃ e, r = .error e ∧ x.Returns s (.error e) t := by
  unfold Returns
  change ended (EStateM.bind x f s) = _ ↔ _
  unfold EStateM.bind
  rcases x s with ⟨a, u⟩ | ⟨e | _, u⟩
  · simp only [ended_ok, Option.some.injEq, Prod.mk.injEq, Except.ok.injEq, reduceCtorEq]
    grind
  · simp only [ended_failed, Option.some.injEq, Prod.mk.injEq, Except.error.injEq, reduceCtorEq]
    grind
  · simp [ended]

theorem returns_bind_of_ok {x : Action σ α} {f : α → Action σ β} {s u t : σ} {a : α}
    {r : Except TransferError β} (h : x.Returns s (.ok a) u) :
    (x >>= f).Returns s r t ↔ (f a).Returns u r t := by
  unfold Returns
  change ended (EStateM.bind x f s) = _ ↔ _
  unfold EStateM.bind
  rw [returns_ok.mp h]

theorem returns_bind_of_error {x : Action σ α} {f : α → Action σ β} {s t : σ} {e : TransferError}
    (h : x.Returns s (.error e) t) : (x >>= f).Returns s (.error e) t := by
  unfold Returns
  change ended (EStateM.bind x f s) = _
  unfold EStateM.bind
  rw [returns_error.mp h]
  rfl

/-- Two steps succeed when the first does and then the second. -/
theorem returns_bind_ok {x : Action σ α} {f : α → Action σ β} {s t : σ} {b : β} :
    (x >>= f).Returns s (.ok b) t ↔ ∃ a u, x.Returns s (.ok a) u ∧ (f a).Returns u (.ok b) t := by
  simp [returns_bind]

theorem returns_map {x : Action σ α} {f : α → β} {s t : σ} {r : Except TransferError β} :
    (f <$> x).Returns s r t ↔ ∃ y, r = y.map f ∧ x.Returns s y t := by
  unfold Returns
  change ended (EStateM.map f x s) = _ ↔ _
  unfold EStateM.map
  rcases x s with ⟨a, u⟩ | ⟨e | _, u⟩
  · simp only [ended_ok, Option.some.injEq, Prod.mk.injEq]
    grind [Except.map]
  · simp only [ended_failed, Option.some.injEq, Prod.mk.injEq]
    grind [Except.map]
  · simp [ended]

@[simp] theorem returns_attempt {x : Action σ α} {s t : σ}
    {r : Except TransferError (Except TransferError α)} :
    (attempt x).Returns s r t ↔ ∃ y, r = .ok y ∧ x.Returns s y t := by
  unfold Returns attempt
  rcases x s with ⟨a, u⟩ | ⟨e | _, u⟩
  · simp only [ended_ok, Option.some.injEq, Prod.mk.injEq]
    grind
  · simp only [ended_ok, ended_failed, Option.some.injEq, Prod.mk.injEq]
    grind
  · simp [ended]

/-- Whatever the step fails with has the property. -/
def Raises (x : Action σ α) (P : TransferError → Prop) : Prop :=
  ∀ s e t, x.Returns s (.error e) t → P e

section Raises

variable {P : TransferError → Prop}

theorem Raises.bind {x : Action σ α} {f : α → Action σ β} (hx : x.Raises P)
    (hf : ∀ a, (f a).Raises P) : (x >>= f).Raises P := by
  intro s e t h
  rcases returns_bind.mp h with ⟨a, u, _, h⟩ | ⟨e', he, h⟩
  · exact hf a u e t h
  · cases he
    exact hx s e t h

theorem raises_ofExcept {y : Except TransferError α} (h : ∀ e, y = .error e → P e) :
    (ofExcept y : Action σ α).Raises P := by
  intro s e t he
  exact h e (returns_ofExcept.mp he).1.symm

theorem raises_pure (a : α) : (pure a : Action σ α).Raises P := by
  intro s e t h
  simp at h

theorem raises_modify (f : σ → σ) : (modify f : Action σ PUnit).Raises P := by
  intro s e t h
  simp at h

theorem raises_get : (get : Action σ σ).Raises P := by
  intro s e t h
  have hget : (get : Action σ σ).Returns s (.ok s) s := returns_ok.mpr rfl
  cases (returns_unique h hget).1

theorem raises_attempt (x : Action σ α) : (attempt x).Raises P := by
  intro s e t h
  simp at h

theorem raises_forM {f : β → Action σ PUnit} (hf : ∀ b, (f b).Raises P) (bs : List β) :
    (bs.forM f).Raises P := by
  induction bs with
  | nil => exact raises_pure _
  | cons b bs ih => exact (hf b).bind fun _ => ih

end Raises

/-- Wherever the step comes back, it has moved the state along `R`. -/
def Moves (x : Action σ α) (R : σ → σ → Prop) : Prop :=
  ∀ s r t, x.Returns s r t → R s t

section Moves

variable {R : σ → σ → Prop}

theorem Moves.bind {x : Action σ α} {f : α → Action σ β} (ht : ∀ s u t, R s u → R u t → R s t)
    (hx : x.Moves R) (hf : ∀ a, (f a).Moves R) : (x >>= f).Moves R := by
  intro s r t h
  rcases returns_bind.mp h with ⟨a, u, hx', hf'⟩ | ⟨e, _, hx'⟩
  · exact ht s u t (hx s _ u hx') (hf a u r t hf')
  · exact hx s _ t hx'

theorem Moves.mono {R' : σ → σ → Prop} {x : Action σ α} (hx : x.Moves R)
    (h : ∀ s t, R s t → R' s t) : x.Moves R' := by
  intro s r t hs
  exact h s t (hx s r t hs)

theorem moves_ofExcept (hr : ∀ s, R s s) (y : Except TransferError α) :
    (ofExcept y : Action σ α).Moves R := by
  intro s r t h
  rw [(returns_ofExcept.mp h).2]
  exact hr s

theorem moves_pure (hr : ∀ s, R s s) (a : α) : (pure a : Action σ α).Moves R :=
  moves_ofExcept hr (.ok a)

theorem moves_modify {f : σ → σ} (h : ∀ s, R s (f s)) : (modify f : Action σ PUnit).Moves R := by
  intro s r t hm
  rw [(returns_modify.mp hm).2]
  exact h s

theorem moves_get_bind {f : σ → Action σ β} (h : ∀ s, (f s).Moves R) :
    (get >>= f : Action σ β).Moves R := by
  intro s r t hg
  exact h s s r t (returns_get_bind.mp hg)

theorem moves_attempt {x : Action σ α} (hx : x.Moves R) : (attempt x).Moves R := by
  intro s r t h
  obtain ⟨y, _, hy⟩ := returns_attempt.mp h
  exact hx s y t hy

theorem moves_map {x : Action σ α} {f : α → β} (hx : x.Moves R) :
    (f <$> x : Action σ β).Moves R := by
  intro s r t h
  obtain ⟨y, _, hy⟩ := returns_map.mp h
  exact hx s y t hy

theorem moves_forM (hr : ∀ s, R s s) (ht : ∀ s u t, R s u → R u t → R s t)
    {f : β → Action σ PUnit} (hf : ∀ b, (f b).Moves R) (bs : List β) : (bs.forM f).Moves R := by
  induction bs with
  | nil => exact moves_pure hr _
  | cons b bs ih => exact (hf b).bind ht fun _ => ih

end Moves

end Courier.Action
