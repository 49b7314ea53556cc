import Courier.Client.Operation
import Courier.Proofs.Client.Trips
import Courier.Proofs.Hanging

namespace Courier

theorem append_eq_middle {α : Type} {as bs before after : List α} {x : α}
    (h : as ++ bs = before ++ x :: after) :
    (∃ rest, as = before ++ x :: rest ∧ after = rest ++ bs) ∨
      ∃ earlier, before = as ++ earlier ∧ bs = earlier ++ x :: after := by
  rcases List.append_eq_append_iff.mp h with ⟨earlier, rfl, rfl⟩ | ⟨rest, rfl, hrest⟩
  · exact .inr ⟨earlier, rfl, rfl⟩
  · cases rest with
    | nil => exact .inr ⟨[], by simp, by simpa using hrest.symm⟩
    | cons y rest =>
      obtain ⟨rfl, rfl⟩ := List.cons.inj hrest
      exact .inl ⟨rest, rfl, rfl⟩

section History

variable {ω : Type}

/-- In the world `w`, which is left as `w'`, the round trip gets no stream, or it is what is said on
the stream it gets, however that ends. -/
inductive RoundTrip.Occurs (env : Environment ω) (w : ω) : RoundTrip → ω → Prop where
  | unconnected {request : Request} {e : TransferError} {w' : ω} :
    env.connect w = (.error e, w') → Occurs env w ⟨request, .error e, none, .error (.failed e)⟩ w'
  | connected {request : Request} {stream : Stream} {clock : Nat} {metrics : Metrics}
      {left : Connection} {y : Except Stop (Option ResponsePayload)} {w' : ω} :
    env.connect w = (.ok stream, w') →
      request.talk.Leads (.onStream stream clock env.timeouts (some metrics)) y left →
        Occurs env w ⟨request, .ok (.onStream stream clock env.timeouts (some metrics)), some left,
          y⟩ w'

/-- A round trip that is over was held. -/
theorem RoundTrip.Occurs.held {env : Environment ω} {w w' : ω} {trip : RoundTrip}
    (h : trip.Occurs env w w') (hy : trip.outcome ≠ .error .hung) : trip.Held env := by
  cases h with
  | unconnected hconnect => exact .unconnected hconnect
  | connected hconnect htalk =>
    obtain ⟨r, rfl, hr⟩ := Action.returns_of_leads htalk hy
    exact .connected hconnect hr

/-- What is noted happens in the world `w`, which is left as `w'`: the surroundings answer so. -/
def Act.Occurs (env : Environment ω) (w w' : ω) : Act → Prop
  | .roundTrip trip => trip.Occurs env w w'
  | .generatedKeys result => env.generateKeys w = (result, w')
  | .derivedPublicKey key result => env.derivePublicKey key w = (result, w')
  | .unwrappedKey key wrapped result => env.unwrapKey key wrapped w = (result, w')
  | .encrypted key content result => env.encrypt key content w = (result, w')
  | .loadedIdentity result => env.loadIdentity w = (result, w')
  | .storedIdentity identity result => env.storeIdentity identity w = (result, w')
  | .loadedFile path result => env.loadFile path w = (result, w')

/-- From the world `w` to `w'` just this happens, one after the other. -/
inductive History (env : Environment ω) : ω → List Act → ω → Prop where
  | nil {w : ω} : History env w [] w
  | cons {w m w' : ω} {act : Act} {acts : List Act} :
    act.Occurs env w m → History env m acts w' → History env w (act :: acts) w'

namespace History

variable {env : Environment ω} {w m w' : ω} {act : Act} {as bs : List Act}

@[simp] theorem nil_iff : History env w [] w' ↔ w' = w := by
  constructor
  · rintro ⟨⟩
    rfl
  · rintro rfl
    exact .nil

@[simp] theorem cons_iff :
    History env w (act :: as) w' ↔ ∃ m, act.Occurs env w m ∧ History env m as w' := by
  constructor
  · rintro (_ | ⟨hact, has⟩)
    exact ⟨_, hact, has⟩
  · rintro ⟨m, hact, has⟩
    exact .cons hact has

theorem singleton_iff : History env w [act] w' ↔ act.Occurs env w w' := by
  simp

/-- What happens can be told in two parts, with the world between them. -/
theorem append_iff :
    History env w (as ++ bs) w' ↔ ∃ m, History env w as m ∧ History env m bs w' := by
  induction as generalizing w with
  | nil => simp
  | cons act as ih =>
    simp only [List.cons_append, cons_iff, ih]
    constructor
    · rintro ⟨u, hact, m, has, hbs⟩
      exact ⟨m, ⟨u, hact, has⟩, hbs⟩
    · rintro ⟨m, ⟨u, hact, has⟩, hbs⟩
      exact ⟨u, hact, m, has, hbs⟩

/-- Each thing that happens does so in a world of its own. -/
theorem occurs_of_mem (h : History env w as w') (hact : act ∈ as) :
    ∃ m m', act.Occurs env m m' := by
  induction h with
  | nil => cases hact
  | cons hfirst _ ih =>
    rcases List.mem_cons.mp hact with rfl | hact
    · exact ⟨_, _, hfirst⟩
    · exact ih hact

theorem append (ha : History env w as m) (hb : History env m bs w') : History env w (as ++ bs) w' :=
  append_iff.mpr ⟨m, ha, hb⟩

end History

end History

end Courier
