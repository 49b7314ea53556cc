import Courier.Proofs.Hanging

namespace Courier

/-- Related results: both of a success, or the same cause. -/
inductive Replies {α β : Type} (U : α → β → Prop) :
    Except TransferError α → Except TransferError β → Prop where
  | ok {a : α} {b : β} : U a b → Replies U (.ok a) (.ok b)
  | error {e : TransferError} : Replies U (.error e) (.error e)

theorem Replies.same {α : Type} (x : Except TransferError α) : Replies Eq x x := by
  cases x with
  | ok a => exact .ok rfl
  | error e => exact .error

theorem Replies.imp {α β : Type} {U V : α → β → Prop} {x : Except TransferError α}
    {y : Except TransferError β} (h : Replies U x y) (hUV : ∀ a b, U a b → V a b) :
    Replies V x y := by
  cases h with
  | ok hab => exact .ok (hUV _ _ hab)
  | error => exact .error

theorem Replies.eq {α : Type} {x y : Except TransferError α} (h : Replies Eq x y) : x = y := by
  cases h with
  | ok hab => rw [hab]
  | error => rfl

namespace Action

variable {σ τ α β α' β' : Type}

/-- The same end of two steps. -/
inductive Matched (V : α → β → σ → τ → Prop) (E : σ → τ → Prop) :
    EStateM.Result Stop σ α → EStateM.Result Stop τ β → Prop where
  | ok {a : α} {b : β} {s : σ} {t : τ} : V a b s t → Matched V E (.ok a s) (.ok b t)
  | error {stop : Stop} {s : σ} {t : τ} : E s t → Matched V E (.error stop s) (.error stop t)

/-- From states related by `P` the steps come to the same end: to results and states related by `V`,
or to a stop in states related by `E`. -/
def Couples (P : σ → τ → Prop) (x : Action σ α) (y : Action τ β) (V : α → β → σ → τ → Prop)
    (E : σ → τ → Prop) : Prop :=
  ∀ s t, P s t → Matched V E (x s) (y t)

section Rules

variable {P Q : σ → τ → Prop} {E : σ → τ → Prop} {V : α → β → σ → τ → Prop}
  {W : α' → β' → σ → τ → Prop} {x : Action σ α} {y : Action τ β}

theorem Couples.bind {f : α → Action σ α'} {g : β → Action τ β'} (h : Couples P x y V E)
    (hfg : ∀ a b, Couples (V a b) (f a) (g b) W E) : Couples P (x >>= f) (y >>= g) W E := by
  intro s t hst
  change Matched W E (EStateM.bind x f s) (EStateM.bind y g t)
  have hxy := h s t hst
  unfold EStateM.bind
  generalize x s = r at hxy
  generalize y t = r' at hxy
  cases hxy with
  | ok hv => exact hfg _ _ _ _ hv
  | error he => exact .error he

theorem Couples.imp {V' : α → β → σ → τ → Prop} {E' : σ → τ → Prop} (h : Couples P x y V E)
    (hP : ∀ s t, Q s t → P s t) (hV : ∀ a b s t, V a b s t → V' a b s t)
    (hE : ∀ s t, E s t → E' s t) : Couples Q x y V' E' := by
  intro s t hst
  have hxy := h s t (hP s t hst)
  generalize x s = r at hxy
  generalize y t = r' at hxy
  cases hxy with
  | ok hv => exact .ok (hV _ _ _ _ hv)
  | error he => exact .error (hE _ _ he)

/-- What holds of the states from the start may be used. -/
theorem couples_of_forall {p : Prop} (hP : ∀ s t, P s t → p) (h : p → Couples P x y V E) :
    Couples P x y V E :=
  fun s t hst => h (hP s t hst) s t hst

theorem couples_pure {a : α} {b : β} (h : ∀ s t, P s t → V a b s t) :
    Couples P (pure a) (pure b) V E :=
  fun s t hst => .ok (h s t hst)

theorem couples_fail {e : TransferError} (h : ∀ s t, P s t → E s t) :
    Couples P (fail e : Action σ α) (fail e : Action τ β) V E :=
  fun s t hst => .error (h s t hst)

theorem couples_ofExcept {p : Except TransferError α} {q : Except TransferError β}
    (h : ∀ s t, P s t → (∃ a b, p = .ok a ∧ q = .ok b ∧ V a b s t) ∨
      ∃ e, p = .error e ∧ q = .error e ∧ E s t) :
    Couples P (ofExcept p) (ofExcept q) V E := by
  intro s t hst
  rcases h s t hst with ⟨a, b, rfl, rfl, hv⟩ | ⟨e, rfl, rfl, he⟩
  · exact .ok hv
  · exact .error he

/-- One reader read on both sides. -/
theorem couples_same (y : Except TransferError α) (h : ∀ s t, P s t → E s t) :
    Couples P (ofExcept y : Action σ α) (ofExcept y : Action τ α) (fun a b s t => a = b ∧ P s t)
      E := by
  intro s t hst
  cases y with
  | ok a => exact .ok ⟨rfl, hst⟩
  | error e => exact .error (h s t hst)

theorem couples_modify {f : σ → σ} {g : τ → τ} {V : PUnit → PUnit → σ → τ → Prop}
    (h : ∀ s t, P s t → V ⟨⟩ ⟨⟩ (f s) (g t)) :
    Couples P (modify f : Action σ PUnit) (modify g : Action τ PUnit) V E :=
  fun s t hst => .ok (h s t hst)

theorem couples_get_bind {f : σ → Action σ α} {g : τ → Action τ β}
    (h : ∀ s t, P s t → Couples P (f s) (g t) V E) : Couples P (get >>= f) (get >>= g) V E :=
  fun s t hst => h s t hst s t hst

theorem Couples.map {f : α → α'} {g : β → β'} (h : Couples P x y V E)
    (hfg : ∀ a b s t, V a b s t → W (f a) (g b) s t) : Couples P (f <$> x) (g <$> y) W E := by
  intro s t hst
  change Matched W E (EStateM.map f x s) (EStateM.map g y t)
  have hxy := h s t hst
  unfold EStateM.map
  generalize x s = r at hxy
  generalize y t = r' at hxy
  cases hxy with
  | ok hv => exact .ok (hfg _ _ _ _ hv)
  | error he => exact .error he

end Rules

/-- Steps that keep their states related by `S`, with results related by `U`. -/
def Keeps (S : σ → τ → Prop) (U : α → β → Prop) (x : Action σ α) (y : Action τ β) : Prop :=
  Couples S x y (fun a b s t => U a b ∧ S s t) S

section Keeps

variable {S : σ → τ → Prop} {U : α → β → Prop} {U' : α' → β' → Prop} {x : Action σ α}
  {y : Action τ β}

theorem Keeps.bind {f : α → Action σ α'} {g : β → Action τ β'} (h : Keeps S U x y)
    (hfg : ∀ a b, U a b → Keeps S U' (f a) (g b)) : Keeps S U' (x >>= f) (y >>= g) :=
  Couples.bind h fun a b s t hab => hfg a b hab.1 s t hab.2

theorem Keeps.mono {V : α → β → Prop} (h : Keeps S U x y) (hUV : ∀ a b, U a b → V a b) :
    Keeps S V x y :=
  Couples.imp h (fun _ _ hst => hst) (fun a b _ _ hab => ⟨hUV a b hab.1, hab.2⟩) fun _ _ he => he

/-- The common case: the first steps agree on their result. -/
theorem Keeps.bind_eq {x : Action σ α} {y : Action τ α} {f : α → Action σ α'}
    {g : α → Action τ β'} (h : Keeps S Eq x y) (hfg : ∀ a, Keeps S U' (f a) (g a)) :
    Keeps S U' (x >>= f) (y >>= g) := by
  refine h.bind fun a b hab => ?_
  subst hab
  exact hfg a

theorem keeps_pure {a : α} {b : β} (h : U a b) : Keeps S U (pure a) (pure b) :=
  couples_pure fun _ _ hst => ⟨h, hst⟩

theorem keeps_fail (e : TransferError) :
    Keeps S U (fail e : Action σ α) (fail e : Action τ β) :=
  couples_fail fun _ _ hst => hst

theorem keeps_ofExcept {p : Except TransferError α} {q : Except TransferError β}
    (h : Replies U p q) : Keeps S U (ofExcept p) (ofExcept q) := by
  cases h with
  | ok hab => exact keeps_pure hab
  | error => exact keeps_fail _

theorem keeps_same (y : Except TransferError α) :
    Keeps S Eq (ofExcept y : Action σ α) (ofExcept y : Action τ α) :=
  couples_same y fun _ _ hst => hst

theorem keeps_modify {f : σ → σ} {g : τ → τ} (h : ∀ s t, S s t → S (f s) (g t)) :
    Keeps S Eq (modify f : Action σ PUnit) (modify g : Action τ PUnit) :=
  couples_modify fun s t hst => ⟨rfl, h s t hst⟩

theorem keeps_get_bind {f : σ → Action σ α} {g : τ → Action τ β}
    (h : ∀ s t, S s t → Keeps S U (f s) (g t)) : Keeps S U (get >>= f) (get >>= g) :=
  couples_get_bind h

theorem Keeps.map {f : α → α'} {g : β → β'} (h : Keeps S U x y)
    (hfg : ∀ a b, U a b → U' (f a) (g b)) : Keeps S U' (f <$> x) (g <$> y) :=
  Couples.map h fun a b _ _ hab => ⟨hfg a b hab.1, hab.2⟩

theorem Keeps.attempt (h : Keeps S U x y) : Keeps S (Replies U) (attempt x) (attempt y) := by
  intro s t hst
  have hxy := h s t hst
  unfold Action.attempt
  generalize x s = r at hxy
  generalize y t = r' at hxy
  cases hxy with
  | ok hv => exact .ok ⟨.ok hv.1, hv.2⟩
  | @error stop _ _ he =>
    cases stop with
    | failed e => exact .ok ⟨.error, he⟩
    | hung => exact .error he

theorem keeps_forM {f : α → Action σ PUnit} {g : α → Action τ PUnit}
    (h : ∀ a, Keeps S Eq (f a) (g a)) (as : List α) : Keeps S Eq (as.forM f) (as.forM g) := by
  induction as with
  | nil => exact keeps_pure rfl
  | cons a as ih => exact (h a).bind_eq fun _ => ih

/-- Where one step comes back the other does, with a related result. -/
theorem Keeps.returns (h : Keeps S U x y) {s s' : σ} {t : τ} {r : Except TransferError α}
    (hst : S s t) (hx : x.Returns s r s') : ∃ r' t', y.Returns t r' t' ∧ Replies U r r' ∧ S s' t' := by
  have hxy := h s t hst
  unfold Returns at hx ⊢
  generalize x s = p at hxy hx
  generalize y t = q at hxy
  cases hxy with
  | ok hv =>
    cases hx
    exact ⟨_, _, rfl, .ok hv.1, hv.2⟩
  | @error stop _ _ he =>
    cases stop with
    | failed e =>
      cases hx
      exact ⟨_, _, rfl, .error, he⟩
    | hung => cases hx

/-- One step waits for ever just if the other does. -/
theorem Keeps.hangs_iff (h : Keeps S U x y) {s : σ} {t : τ} (hst : S s t) :
    ended (x s) = none ↔ ended (y t) = none := by
  have hxy := h s t hst
  generalize x s = p at hxy
  generalize y t = q at hxy
  cases hxy with
  | ok hv => simp [ended]
  | @error stop _ _ he => cases stop <;> simp [ended]

/-- However the steps end, they leave related states. -/
theorem Keeps.final (h : Keeps S U x y) {s : σ} {t : τ} (hst : S s t) :
    S (x.final s) (y.final t) := by
  have hxy := h s t hst
  unfold Action.final
  generalize x s = p at hxy
  generalize y t = q at hxy
  cases hxy with
  | ok hv => exact hv.2
  | error he => exact he

end Keeps

end Action

end Courier
