import Courier.Proofs.Action

namespace Courier.Action

variable {σ α β : Type}

/-- The step, begun in `s`, waits for ever in `t`. -/
def Hangs (x : Action σ α) (s t : σ) : Prop :=
  x s = .error .hung t

/-- The state in which a step comes to its end, whatever its end is. -/
def final (x : Action σ α) (s : σ) : σ :=
  match x s with
  | .ok _ t | .error _ t => t

theorem final_of_returns {x : Action σ α} {s t : σ} {r : Except TransferError α}
    (h : x.Returns s r t) : x.final s = t := by
  unfold final
  cases r with
  | ok a => rw [returns_ok.mp h]
  | error e => rw [returns_error.mp h]

theorem final_of_hangs {x : Action σ α} {s t : σ} (h : x.Hangs s t) : x.final s = t := by
  unfold Hangs at h
  unfold final
  rw [h]

theorem not_hangs_of_returns {x : Action σ α} {s t u : σ} {r : Except TransferError α}
    (h : x.Returns s r t) : ¬x.Hangs s u := by
  intro hu
  unfold Returns at h
  unfold Hangs at hu
  rw [hu] at h
  cases h

/-- A step comes back or waits for ever. -/
theorem returns_or_hangs (x : Action σ α) (s : σ) :
    (∃ r t, x.Returns s r t) ∨ ∃ t, x.Hangs s t := by
  rcases h : x s with ⟨a, t⟩ | ⟨e | _, t⟩
  · exact .inl ⟨.ok a, t, returns_ok.mpr h⟩
  · exact .inl ⟨.error e, t, returns_error.mpr h⟩
  · exact .inr ⟨t, h⟩

@[simp] theorem not_hangs_ofExcept {s t : σ} {y : Except TransferError α} :
    ¬(ofExcept y : Action σ α).Hangs s t :=
  not_hangs_of_returns (returns_ofExcept.mpr ⟨rfl, rfl⟩)

@[simp] theorem not_hangs_modify {s t : σ} {f : σ → σ} :
    ¬(modify f : Action σ PUnit).Hangs s t :=
  not_hangs_of_returns (returns_modify.mpr ⟨rfl, rfl⟩)

/-- The first step waits for ever, or the second one does from where the first came to. -/
theorem hangs_bind {x : Action σ α} {f : α → Action σ β} {s t : σ} :
    (x >>= f).Hangs s t ↔ x.Hangs s t ∨ ∃ a u, x.Returns s (.ok a) u ∧ (f a).Hangs u t := by
  unfold Hangs
  simp only [returns_ok]
  change EStateM.bind x f s = _ ↔ _
  unfold EStateM.bind
  rcases x s with ⟨a, u⟩ | ⟨e, u⟩
  · simp only [reduceCtorEq, false_or, EStateM.Result.ok.injEq]
    grind
  · simp

theorem hangs_bind_of_ok {x : Action σ α} {f : α → Action σ β} {s t u : σ} {a : α}
    (h : x.Returns s (.ok a) u) : (x >>= f).Hangs s t ↔ (f a).Hangs u t := by
  unfold Hangs
  change EStateM.bind x f s = _ ↔ _
  unfold EStateM.bind
  rw [returns_ok.mp h]

/-- Where a step comes to its end after another one that succeeded. -/
theorem final_bind_of_ok {x : Action σ α} {f : α → Action σ β} {s t : σ} {a : α}
    (h : x.Returns s (.ok a) t) : (x >>= f).final s = (f a).final t := by
  rcases returns_or_hangs (f a) t with ⟨r, u, hu⟩ | ⟨u, hu⟩
  · rw [final_of_returns hu, final_of_returns ((returns_bind_of_ok h).mpr hu)]
  · rw [final_of_hangs hu, final_of_hangs ((hangs_bind_of_ok h).mpr hu)]

theorem hangs_map {x : Action σ α} {f : α → β} {s t : σ} :
    (f <$> x).Hangs s t ↔ x.Hangs s t := by
  unfold Hangs
  change EStateM.map f x s = _ ↔ _
  unfold EStateM.map
  rcases x s with ⟨a, u⟩ | ⟨e, u⟩ <;> simp

theorem hangs_attempt {x : Action σ α} {s t : σ} : (attempt x).Hangs s t ↔ x.Hangs s t := by
  unfold Hangs attempt
  rcases x s with ⟨a, u⟩ | ⟨e | _, u⟩ <;> simp

/-- What a run comes to, be it a stop, and where it leaves off. -/
def result : EStateM.Result Stop σ α → Except Stop α × σ
  | .ok a t => (.ok a, t)
  | .error stop t => (.error stop, t)

theorem mapError_failed_inj {r r' : Except TransferError α}
    (h : (r.mapError .failed : Except Stop α) = r'.mapError .failed) : r' = r := by
  cases r <;> cases r' <;> cases h <;> rfl

/-- A result that is handed on in another form comes from a result. -/
theorem eq_map_of_mapError_failed {f : α → β} {r : Except TransferError β} {y : Except Stop α}
    (h : (r.mapError .failed : Except Stop β) = y.map f) :
    ∃ r' : Except TransferError α, y = r'.mapError .failed ∧ r = r'.map f := by
  cases y with
  | ok a =>
    refine ⟨.ok a, rfl, ?_⟩
    cases r <;> cases h
    rfl
  | error stop =>
    cases r <;> cases h
    exact ⟨.error _, rfl, rfl⟩

theorem mapError_failed_ne_hung (r : Except TransferError α) :
    (r.mapError .failed : Except Stop α) ≠ .error .hung := by
  cases r <;> nofun

/-- The step leads from `s` to `t` with `y`. One that waits for ever leads to where it waits. -/
def Leads (x : Action σ α) (s : σ) (y : Except Stop α) (t : σ) : Prop :=
  result (x s) = (y, t)

section Leads

variable {x : Action σ α} {s t u : σ} {y : Except Stop α}

theorem leads_final (x : Action σ α) (s : σ) : ∃ y, x.Leads s y (x.final s) := by
  unfold Leads final
  rcases x s with ⟨a, t⟩ | ⟨stop, t⟩
  · exact ⟨.ok a, rfl⟩
  · exact ⟨.error stop, rfl⟩

theorem leads_unique {y' : Except Stop α} (h : x.Leads s y t) (h' : x.Leads s y' u) :
    y' = y ∧ u = t := by
  have hsame := h'.symm.trans h
  exact Prod.mk.inj hsame

theorem leads_of_returns {r : Except TransferError α} (h : x.Returns s r t) :
    x.Leads s (r.mapError .failed) t := by
  unfold Leads
  cases r with
  | ok a =>
    rw [returns_ok.mp h]
    rfl
  | error e =>
    rw [returns_error.mp h]
    rfl

theorem leads_of_hangs (h : x.Hangs s t) : x.Leads s (.error .hung) t := by
  unfold Hangs at h
  unfold Leads
  rw [h]
  rfl

theorem final_of_leads (h : x.Leads s y t) : x.final s = t := by
  obtain ⟨z, hz⟩ := leads_final x s
  exact (leads_unique h hz).2

/-- What does not wait for ever comes back. -/
theorem returns_of_leads (h : x.Leads s y t) (hy : y ≠ .error .hung) :
    ∃ r : Except TransferError α, y = r.mapError .failed ∧ x.Returns s r t := by
  unfold Leads at h
  rcases hx : x s with ⟨a, u⟩ | ⟨e | _, u⟩
  · rw [hx] at h
    obtain ⟨rfl, rfl⟩ := Prod.mk.inj h
    exact ⟨.ok a, rfl, returns_ok.mpr hx⟩
  · rw [hx] at h
    obtain ⟨rfl, rfl⟩ := Prod.mk.inj h
    exact ⟨.error e, rfl, returns_error.mpr hx⟩
  · rw [hx] at h
    exact absurd (Prod.mk.inj h).1.symm hy

theorem returns_of_leads_mapError {r : Except TransferError α}
    (h : x.Leads s (r.mapError .failed) t) : x.Returns s r t := by
  obtain ⟨r', hr, hx⟩ := returns_of_leads h (mapError_failed_ne_hung r)
  obtain rfl := mapError_failed_inj hr
  exact hx

theorem hangs_of_leads (h : x.Leads s (.error .hung) t) : x.Hangs s t := by
  unfold Leads at h
  unfold Hangs
  rcases hx : x s with ⟨a, u⟩ | ⟨stop, u⟩
  · rw [hx] at h
    cases h
  · rw [hx] at h
    cases h
    rfl

theorem returns_ok_of_leads {a : α} (h : x.Leads s (.ok a) t) : x.Returns s (.ok a) t :=
  returns_of_leads_mapError (r := .ok a) h

theorem leads_ofExcept {r : Except TransferError α} :
    (ofExcept r : Action σ α).Leads s y t ↔ y = r.mapError .failed ∧ t = s := by
  unfold Leads ofExcept
  cases r with
  | ok a =>
    constructor
    · rintro ⟨⟩
      exact ⟨rfl, rfl⟩
    · rintro ⟨rfl, rfl⟩
      rfl
  | error e =>
    constructor
    · rintro ⟨⟩
      exact ⟨rfl, rfl⟩
    · rintro ⟨rfl, rfl⟩
      rfl

/-- The first step stops, or the second one leads on from where the first left off. -/
theorem leads_bind {f : α → Action σ β} {z : Except Stop β} :
    (x >>= f).Leads s z t ↔
      (∃ a u, x.Leads s (.ok a) u ∧ (f a).Leads u z t) ∨
        ∃ stop, z = .error stop ∧ x.Leads s (.error stop) t := by
  unfold Leads
  change result (EStateM.bind x f s) = _ ↔ _
  unfold EStateM.bind
  rcases x s with ⟨a, u⟩ | ⟨stop, u⟩
  · simp only [result, Prod.mk.injEq, Except.ok.injEq, reduceCtorEq]
    grind
  · simp only [result, Prod.mk.injEq, Except.error.injEq, reduceCtorEq]
    grind

theorem leads_bind_of_ok {f : α → Action σ β} {z : Except Stop β} {a : α}
    (h : x.Leads s (.ok a) u) : (x >>= f).Leads s z t ↔ (f a).Leads u z t := by
  rw [leads_bind]
  constructor
  · rintro (⟨b, v, hx, hf⟩ | ⟨stop, -, hx⟩)
    · obtain ⟨hb, rfl⟩ := leads_unique h hx
      obtain rfl := Except.ok.inj hb
      exact hf
    · cases (leads_unique h hx).1
  · exact fun hf => .inl ⟨a, u, h, hf⟩

theorem leads_map {f : α → β} {z : Except Stop β} :
    (f <$> x).Leads s z t ↔ ∃ y, z = y.map f ∧ x.Leads s y t := by
  unfold Leads
  change result (EStateM.map f x s) = _ ↔ _
  unfold EStateM.map
  rcases x s with ⟨a, u⟩ | ⟨stop, u⟩
  · simp only [result, Prod.mk.injEq]
    grind [Except.map]
  · simp only [result, Prod.mk.injEq]
    grind [Except.map]

theorem leads_get_bind {f : σ → Action σ β} {z : Except Stop β} :
    (get >>= f : Action σ β).Leads s z t ↔ (f s).Leads s z t :=
  Iff.rfl

theorem leads_modify {f : σ → σ} {z : Except Stop PUnit} :
    (modify f : Action σ PUnit).Leads s z t ↔ z = .ok ⟨⟩ ∧ t = f s := by
  constructor
  · rintro ⟨⟩
    exact ⟨rfl, rfl⟩
  · rintro ⟨rfl, rfl⟩
    rfl

/-- A tried step comes back with its result, or it waits for ever. -/
theorem leads_attempt {z : Except Stop (Except TransferError α)} :
    (attempt x).Leads s z t ↔
      (∃ r : Except TransferError α, z = .ok r ∧ x.Leads s (r.mapError .failed) t) ∨
        z = .error .hung ∧ x.Leads s (.error .hung) t := by
  constructor
  · intro h
    rcases returns_or_hangs x s with ⟨r, u, hr⟩ | ⟨u, hu⟩
    · have hattempt : (attempt x).Leads s (.ok r) u :=
        leads_of_returns (returns_attempt.mpr ⟨r, rfl, hr⟩)
      obtain ⟨rfl, rfl⟩ := leads_unique hattempt h
      exact .inl ⟨r, rfl, leads_of_returns hr⟩
    · obtain ⟨rfl, rfl⟩ := leads_unique (leads_of_hangs (hangs_attempt.mpr hu)) h
      exact .inr ⟨rfl, leads_of_hangs hu⟩
  · rintro (⟨r, rfl, h⟩ | ⟨rfl, h⟩)
    · exact leads_of_returns (returns_attempt.mpr ⟨_, rfl, returns_of_leads_mapError h⟩)
    · exact leads_of_hangs (hangs_attempt.mpr (hangs_of_leads h))

end Leads

/-- Wherever the step is begun, it comes back. -/
def Ends (x : Action σ α) : Prop :=
  ∀ s t, ¬x.Hangs s t

section Ends

theorem Ends.bind {x : Action σ α} {f : α → Action σ β} (hx : x.Ends) (hf : ∀ a, (f a).Ends) :
    (x >>= f).Ends := by
  intro s t h
  rcases hangs_bind.mp h with h | ⟨a, u, -, h⟩
  · exact hx s t h
  · exact hf a u t h

theorem ends_ofExcept (y : Except TransferError α) : (ofExcept y : Action σ α).Ends :=
  fun _ _ => not_hangs_ofExcept

theorem ends_pure (a : α) : (pure a : Action σ α).Ends :=
  ends_ofExcept (.ok a)

theorem ends_modify (f : σ → σ) : (modify f : Action σ PUnit).Ends :=
  fun _ _ => not_hangs_modify

theorem ends_get_bind {f : σ → Action σ β} (h : ∀ s, (f s).Ends) :
    (get >>= f : Action σ β).Ends :=
  fun s t => h s s t

theorem ends_forM {f : β → Action σ PUnit} (hf : ∀ b, (f b).Ends) (bs : List β) :
    (bs.forM f).Ends := by
  induction bs with
  | nil => exact ends_pure _
  | cons b bs ih => exact (hf b).bind fun _ => ih

end Ends

end Courier.Action
