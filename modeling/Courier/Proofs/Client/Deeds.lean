import Courier.Proofs.Client.History
import Courier.Proofs.Counters

namespace Courier

def Act.isRoundTrip : Act → Bool
  | .roundTrip _ => true
  | _ => false

/-- One thing that a client does. Of its surroundings and of the server it notes the answer. -/
inductive Deed where
  | noted (act : Act)
  | told (event : Event)
  | counted (gain : Metrics)
  | changed (session : Session)

namespace Deed

def act? : Deed → Option Act
  | noted act => some act
  | _ => none

def event? : Deed → Option Event
  | told event => some event
  | _ => none

def gain : Deed → Metrics
  | counted gain => gain
  | _ => 0

/-- What is noted in the journal. -/
def acts (deeds : List Deed) : List Act :=
  deeds.filterMap act?

/-- What is told the log, besides what connections tell it. -/
def events (deeds : List Deed) : List Event :=
  deeds.filterMap event?

/-- What is counted, besides what round trips count. -/
def gains (deeds : List Deed) : Metrics :=
  (deeds.map gain).sum

/-- The session after a deed, from `s` on. -/
def session (s : Session) : Deed → Session
  | changed t => t
  | _ => s

/-- The session that is left, from `s` on. -/
def left (s : Session) (deeds : List Deed) : Session :=
  deeds.foldl session s

section Lists

variable {act : Act} {e : Event} {gain : Metrics} {s t : Session} {deeds ds es : List Deed}

@[simp] theorem acts_nil : acts [] = [] :=
  rfl

@[simp] theorem acts_noted : acts (noted act :: deeds) = act :: acts deeds :=
  rfl

@[simp] theorem acts_told : acts (told e :: deeds) = acts deeds :=
  rfl

@[simp] theorem acts_counted : acts (counted gain :: deeds) = acts deeds :=
  rfl

@[simp] theorem acts_changed : acts (changed t :: deeds) = acts deeds :=
  rfl

@[simp] theorem acts_append : acts (ds ++ es) = acts ds ++ acts es :=
  List.filterMap_append

@[simp] theorem events_told : events (told e :: deeds) = e :: events deeds :=
  rfl

@[simp] theorem events_counted : events (counted gain :: deeds) = events deeds :=
  rfl

@[simp] theorem events_changed : events (changed t :: deeds) = events deeds :=
  rfl

@[simp] theorem events_append : events (ds ++ es) = events ds ++ events es :=
  List.filterMap_append

@[simp] theorem gains_nil : gains [] = 0 :=
  rfl

@[simp] theorem gains_noted : gains (noted act :: deeds) = gains deeds :=
  Metrics.zero_add _

@[simp] theorem gains_told : gains (told e :: deeds) = gains deeds :=
  Metrics.zero_add _

@[simp] theorem gains_counted : gains (counted gain :: deeds) = gain + gains deeds :=
  rfl

@[simp] theorem gains_changed : gains (changed t :: deeds) = gains deeds :=
  Metrics.zero_add _

@[simp] theorem gains_append : gains (ds ++ es) = gains ds + gains es := by
  unfold gains
  rw [List.map_append, List.sum_append]

@[simp] theorem left_nil : left s [] = s :=
  rfl

@[simp] theorem left_noted : left s (noted act :: deeds) = left s deeds :=
  rfl

@[simp] theorem left_told : left s (told e :: deeds) = left s deeds :=
  rfl

@[simp] theorem left_counted : left s (counted gain :: deeds) = left s deeds :=
  rfl

@[simp] theorem left_changed : left s (changed t :: deeds) = left t deeds :=
  rfl

@[simp] theorem left_append : left s (ds ++ es) = left (left s ds) es :=
  List.foldl_append

end Lists

end Deed

namespace Client

open Courier.Action

variable {ω α β : Type} {env : Environment ω} {c m d : Client ω}

/-- From `c` to `d` the client holds the round trip, however that ends. -/
inductive Converses (env : Environment ω) (c : Client ω) : RoundTrip → Client ω → Prop where
  | unconnected {request : Request} {e : TransferError} {w : ω} :
    env.connect c.world = (.error e, w) →
      Converses env c ⟨request, .error e, none, .error (.failed e)⟩ (unconnected c w request e)
  | connected {request : Request} {stream : Stream} {w : ω} {left : Connection}
      {y : Except Stop (Option ResponsePayload)} :
    env.connect c.world = (.ok stream, w) → request.talk.Leads (opening env c stream) y left →
      Converses env c ⟨request, .ok (opening env c stream), some left, y⟩
        (disconnected c w ⟨request, .ok (opening env c stream), some left, y⟩ left)

/-- From `c` to `d` the client does just this. -/
inductive Happens (env : Environment ω) (c : Client ω) : Deed → Client ω → Prop where
  | asked {act : Act} {w : ω} :
    act.isRoundTrip = false → act.Occurs env c.world w →
      Happens env c (.noted act) { c with world := w, journal := c.journal ++ [act] }
  | conversed {trip : RoundTrip} {d : Client ω} :
    Converses env c trip d → trip.outcome ≠ .error .hung →
      Happens env c (.noted (.roundTrip trip)) d
  | told {e : Event} :
    -- Where the counters are told, they are told as they are.
    (∀ m, e = .metricsSnapshot m → m = c.metrics) →
      Happens env c (.told e) { c with log := c.log ++ [e] }
  | counted {gain : Metrics} : Happens env c (.counted gain) { c with metrics := c.metrics + gain }
  | changed {s : Session} : Happens env c (.changed s) { c with session := s }

/-- From `c` to `d` the client does just these things, one after the other. -/
inductive Does (env : Environment ω) : Client ω → List Deed → Client ω → Prop where
  | nil {c : Client ω} : Does env c [] c
  | cons {c m d : Client ω} {deed : Deed} {deeds : List Deed} :
    Happens env c deed m → Does env m deeds d → Does env c (deed :: deeds) d

/-- The client does these things and is left as `d`, be it in a round trip that waits for ever. -/
inductive Comes (env : Environment ω) (c : Client ω) :
    List Deed → Except Stop α → Client ω → Prop where
  | ended {deeds : List Deed} {y : Except Stop α} {d : Client ω} :
    Does env c deeds d → y ≠ .error .hung → Comes env c deeds y d
  | hung {deeds : List Deed} {trip : RoundTrip} {m d : Client ω} :
    Does env c deeds m → Converses env m trip d → trip.outcome = .error .hung →
      Comes env c (deeds ++ [.noted (.roundTrip trip)]) (.error .hung) d

section Facts

variable {deeds ds es : List Deed} {deed : Deed} {trip : RoundTrip}

theorem Converses.session_eq (h : Converses env c trip d) : d.session = c.session := by
  cases h <;> rfl

theorem Converses.journal_eq (h : Converses env c trip d) :
    d.journal = c.journal ++ [.roundTrip trip] := by
  cases h <;> rfl

theorem Converses.occurs (h : Converses env c trip d) : trip.Occurs env c.world d.world := by
  cases h with
  | unconnected hconnect => exact .unconnected hconnect
  | connected hconnect htalk => exact .connected hconnect htalk

theorem Happens.session_eq (h : Happens env c deed d) : d.session = deed.session c.session := by
  cases h with
  | conversed hconverses => exact hconverses.session_eq
  | asked | told | counted | changed => rfl

theorem Does.append (h : Does env c ds m) (h' : Does env m es d) : Does env c (ds ++ es) d := by
  induction h with
  | nil => exact h'
  | cons hfirst _ ih => exact .cons hfirst (ih h')

theorem Does.of_append (h : Does env c (ds ++ es) d) : ∃ m, Does env c ds m ∧ Does env m es d := by
  induction ds generalizing c with
  | nil => exact ⟨c, .nil, h⟩
  | cons deed ds ih =>
    cases h with
    | cons hfirst hrest =>
      obtain ⟨m, hds, hes⟩ := ih hrest
      exact ⟨m, .cons hfirst hds, hes⟩

theorem Does.session_eq (h : Does env c deeds d) : d.session = Deed.left c.session deeds := by
  induction h with
  | nil => rfl
  | cons hfirst _ ih =>
    rw [ih, hfirst.session_eq]
    rfl

end Facts

/-- The client notes just these acts from `c` to `d`, and the surroundings answer so. -/
structure Notes (env : Environment ω) (c : Client ω) (acts : List Act) (d : Client ω) : Prop where
  journal_eq : d.journal = c.journal ++ acts
  history : History env c.world acts d.world

section Notes

variable {acts more : List Act} {deed : Deed} {deeds : List Deed} {trip : RoundTrip}

theorem Notes.nil (hj : d.journal = c.journal) (hw : d.world = c.world) : Notes env c [] d := by
  refine ⟨?_, ?_⟩
  · rw [hj, List.append_nil]
  · rw [hw]
    exact .nil

theorem Notes.append (h : Notes env c acts m) (h' : Notes env m more d) :
    Notes env c (acts ++ more) d := by
  refine ⟨?_, h.history.append h'.history⟩
  rw [h'.journal_eq, h.journal_eq, List.append_assoc]

theorem Converses.notes (h : Converses env c trip d) : Notes env c [.roundTrip trip] d :=
  ⟨h.journal_eq, History.singleton_iff.mpr h.occurs⟩

theorem Happens.notes (h : Happens env c deed d) : Notes env c (Deed.acts [deed]) d := by
  cases h with
  | asked _ hoccurs => exact ⟨rfl, History.singleton_iff.mpr hoccurs⟩
  | conversed hconverses => exact hconverses.notes
  | told | counted | changed => exact .nil rfl rfl

theorem Does.notes (h : Does env c deeds d) : Notes env c (Deed.acts deeds) d := by
  induction h with
  | nil => exact .nil rfl rfl
  | @cons _ _ _ deed deeds hfirst _ ih =>
    have hacts : Deed.acts ([deed] ++ deeds) = Deed.acts [deed] ++ Deed.acts deeds :=
      Deed.acts_append
    rw [List.singleton_append] at hacts
    rw [hacts]
    exact hfirst.notes.append ih

theorem Comes.notes {y : Except Stop α} (h : Comes env c deeds y d) :
    Notes env c (Deed.acts deeds) d := by
  cases h with
  | ended hdoes => exact hdoes.notes
  | hung hdoes hconverses =>
    rw [Deed.acts_append]
    exact hdoes.notes.append hconverses.notes

theorem Comes.session_eq {y : Except Stop α} (h : Comes env c deeds y d) :
    d.session = Deed.left c.session deeds := by
  cases h with
  | ended hdoes => exact hdoes.session_eq
  | hung hdoes hconverses =>
    rw [Deed.left_append, hconverses.session_eq, hdoes.session_eq]
    rfl

theorem Does.trips_eq (h : Does env c deeds d) :
    trips d.journal = trips c.journal ++ trips (Deed.acts deeds) := by
  rw [h.notes.journal_eq, trips_append]

theorem Does.occurs {act : Act} (h : Does env c deeds d) (hact : act ∈ Deed.acts deeds) :
    ∃ w w', act.Occurs env w w' :=
  h.notes.history.occurs_of_mem hact

/-- Each round trip on the way is over, and held. -/
theorem Does.held (h : Does env c deeds d) : ∀ trip ∈ trips (Deed.acts deeds), trip.Held env := by
  induction h with
  | nil => simp [trips]
  | cons hfirst _ ih =>
    cases hfirst with
    | conversed hconverses hended =>
      intro trip htrip
      rcases List.mem_cons.mp htrip with rfl | htrip
      · exact hconverses.occurs.held hended
      · exact ih trip htrip
    | @asked act w hact =>
      cases act with
      | roundTrip trip => cases hact
      | _ => exact ih
    | told | counted | changed => exact ih

end Notes

section Coming

variable {deeds ds es : List Deed} {deed : Deed} {y : Except Stop α}

theorem Does.comes (h : Does env c ds m) (h' : Comes env m es y d) : Comes env c (ds ++ es) y d := by
  cases h' with
  | ended hdoes hy => exact .ended (h.append hdoes) hy
  | hung hdoes hconverses hhung =>
    rw [← List.append_assoc]
    exact .hung (h.append hdoes) hconverses hhung

theorem Happens.comes (h : Happens env c deed m) (h' : Comes env m deeds y d) :
    Comes env c (deed :: deeds) y d :=
  (Does.cons h .nil).comes h'

/-- What stops one step stops what it is part of. -/
theorem Comes.stop {stop : Stop} (h : Comes env c deeds (.error stop : Except Stop α) d) :
    Comes env c deeds (.error stop : Except Stop β) d := by
  generalize hy : (.error stop : Except Stop α) = y at h
  cases h with
  | ended hdoes hended =>
    refine .ended hdoes ?_
    rintro ⟨⟩
    exact hended hy.symm
  | hung hdoes hconverses hhung =>
    obtain rfl := Except.error.inj hy
    exact .hung hdoes hconverses hhung

theorem Comes.does {a : α} (h : Comes env c deeds (.ok a : Except Stop α) d) :
    Does env c deeds d := by
  generalize hy : (.ok a : Except Stop α) = y at h
  cases h with
  | ended hdoes => exact hdoes
  | hung => cases hy

theorem Comes.does_of_result {r : Except TransferError α}
    (h : Comes env c deeds (r.mapError .failed : Except Stop α) d) : Does env c deeds d := by
  generalize hy : (r.mapError .failed : Except Stop α) = y at h
  cases h with
  | ended hdoes => exact hdoes
  | hung => cases r <;> cases hy

end Coming

/-- Whatever comes of the step, begun with the session `s`, the client does what the course `C` says,
and the result is that of the course. -/
def Follows (env : Environment ω) (x : Action (Client ω) α) (s : Session)
    (C : List Deed → Except Stop α → Prop) : Prop :=
  ∀ c y d, c.session = s → x.Leads c y d → ∃ deeds, C deeds y ∧ Comes env c deeds y d

section Rules

variable {s : Session} {C : List Deed → Except Stop α → Prop}
  {E : List Deed → Except Stop β → Prop}

theorem follows_ofExcept {r : Except TransferError α} (h : C [] (r.mapError .failed)) :
    Follows env (ofExcept r) s C := by
  intro c y d _ hx
  obtain ⟨rfl, rfl⟩ := leads_ofExcept.mp hx
  exact ⟨[], h, .ended .nil (by cases r <;> nofun)⟩

theorem follows_pure {a : α} (h : C [] (.ok a)) : Follows env (pure a) s C :=
  follows_ofExcept (r := .ok a) h

theorem follows_fail {e : TransferError} (h : C [] (.error (.failed e))) :
    Follows env (fail e) s C :=
  follows_ofExcept (r := .error e) h

/-- The course of a step that comes back. -/
theorem Follows.of_returns {x : Action (Client ω) α} {r : Except TransferError α}
    (hx : Follows env x c.session C) (h : x.Returns c r d) :
    ∃ deeds, C deeds (r.mapError .failed) ∧ Does env c deeds d := by
  obtain ⟨deeds, hC, hcomes⟩ := hx c _ d rfl (leads_of_returns h)
  exact ⟨deeds, hC, hcomes.does_of_result⟩

theorem Follows.mono {x : Action (Client ω) α} {D : List Deed → Except Stop α → Prop}
    (hx : Follows env x s C) (h : ∀ deeds y, C deeds y → D deeds y) : Follows env x s D := by
  intro c y d hs hy
  obtain ⟨deeds, hC, hcomes⟩ := hx c y d hs hy
  exact ⟨deeds, h deeds y hC, hcomes⟩

theorem Follows.bind {x : Action (Client ω) α} {f : α → Action (Client ω) β}
    (hx : Follows env x s C) (hstop : ∀ stop deeds, C deeds (.error stop) → E deeds (.error stop))
    (hf : ∀ a deeds, C deeds (.ok a) →
      Follows env (f a) (Deed.left s deeds) fun es z => E (deeds ++ es) z) :
    Follows env (x >>= f) s E := by
  intro c z d hs h
  rcases leads_bind.mp h with ⟨a, m, hm, hrest⟩ | ⟨stop, rfl, hd⟩
  · obtain ⟨deeds, hC, hcomes⟩ := hx c _ m hs hm
    have hdoes := hcomes.does
    have hleft : m.session = Deed.left s deeds := by rw [hdoes.session_eq, hs]
    obtain ⟨es, hE, hcomes'⟩ := hf a deeds hC m z d hleft hrest
    exact ⟨deeds ++ es, hE, hdoes.comes hcomes'⟩
  · obtain ⟨deeds, hC, hcomes⟩ := hx c _ d hs hd
    exact ⟨deeds, hstop stop deeds hC, hcomes.stop⟩

/-- The course of a step whose result is only handed on in another form. -/
theorem Follows.map {x : Action (Client ω) α} {f : α → β} (hx : Follows env x s C)
    (h : ∀ deeds y, C deeds y → E deeds (y.map f)) : Follows env (f <$> x) s E := by
  intro c z d hs hmap
  obtain ⟨y, rfl, hy⟩ := leads_map.mp hmap
  obtain ⟨deeds, hC, hcomes⟩ := hx c y d hs hy
  refine ⟨deeds, h deeds y hC, ?_⟩
  cases y with
  | ok a => exact .ended hcomes.does (by nofun)
  | error stop => exact hcomes.stop

/-- A step that is tried goes on with its result, unless it waits for ever. -/
theorem Follows.attempt_bind {x : Action (Client ω) α}
    {f : Except TransferError α → Action (Client ω) β} (hx : Follows env x s C)
    (hhung : ∀ deeds, C deeds (.error .hung) → E deeds (.error .hung))
    (hf : ∀ (r : Except TransferError α) deeds, C deeds (r.mapError .failed) →
      Follows env (f r) (Deed.left s deeds) fun es z => E (deeds ++ es) z) :
    Follows env (attempt x >>= f) s E := by
  intro c z d hs h
  rcases leads_bind.mp h with ⟨r, m, hattempt, hrest⟩ | ⟨stop, rfl, hattempt⟩
  · rcases leads_attempt.mp hattempt with ⟨r', hr, hm⟩ | ⟨he, -⟩
    · obtain rfl := Except.ok.inj hr
      obtain ⟨deeds, hC, hcomes⟩ := hx c _ m hs hm
      have hdoes := hcomes.does_of_result
      have hleft : m.session = Deed.left s deeds := by rw [hdoes.session_eq, hs]
      obtain ⟨es, hE, hcomes'⟩ := hf r deeds hC m z d hleft hrest
      exact ⟨deeds ++ es, hE, hdoes.comes hcomes'⟩
    · cases he
  · rcases leads_attempt.mp hattempt with ⟨r', hr, -⟩ | ⟨he, hd⟩
    · cases hr
    · cases he
      obtain ⟨deeds, hC, hcomes⟩ := hx c _ d hs hd
      exact ⟨deeds, hhung deeds hC, hcomes.stop⟩

theorem follows_get_bind {f : Client ω → Action (Client ω) β}
    (h : ∀ c : Client ω, c.session = s → Follows env (f c) s E) : Follows env (get >>= f) s E :=
  fun c y d hs hx => h c hs c y d hs (leads_get_bind.mp hx)

theorem follows_fail_bind {e : TransferError} {f : α → Action (Client ω) β}
    (h : E [] (.error (.failed e))) : Follows env (fail e >>= f) s E :=
  follows_fail h

/-- What is looked at must be in order. -/
theorem follows_ofExcept_bind {r : Except TransferError α} {f : α → Action (Client ω) β}
    (herror : ∀ e, r = .error e → E [] (.error (.failed e)))
    (hok : ∀ a, r = .ok a → Follows env (f a) s E) : Follows env (ofExcept r >>= f) s E := by
  cases r with
  | ok a => exact hok a rfl
  | error e => exact follows_fail (herror e rfl)

theorem follows_require_bind {g : Session → Except TransferError α} {f : α → Action (Client ω) β}
    (herror : ∀ e, g s = .error e → E [] (.error (.failed e)))
    (hok : ∀ a, g s = .ok a → Follows env (f a) s E) : Follows env (require g >>= f) s E := by
  intro c y d hs hx
  subst hs
  exact follows_ofExcept_bind herror hok c y d rfl hx

/-- A deed that cannot fail, and then the rest. -/
theorem follows_modify_bind {f : Client ω → Client ω} {g : Action (Client ω) β} {deed : Deed}
    (h : ∀ c, c.session = s → Happens env c deed (f c))
    (hrest : Follows env g (deed.session s) fun deeds y => E (deed :: deeds) y) :
    Follows env (modify f >>= fun _ => g) s E := by
  intro c y d hs hx
  have hdeed := h c hs
  have hleads : (modify f : Action (Client ω) PUnit).Leads c (.ok ⟨⟩) (f c) :=
    leads_modify.mpr ⟨rfl, rfl⟩
  rw [leads_bind_of_ok hleads] at hx
  have hleft : (f c).session = deed.session s := by rw [hdeed.session_eq, hs]
  obtain ⟨deeds, hE, hcomes⟩ := hrest (f c) y d hleft hx
  exact ⟨deed :: deeds, hE, hdeed.comes hcomes⟩

theorem follows_report_bind {e : Event} {g : Action (Client ω) β}
    (he : ∀ m, e ≠ .metricsSnapshot m)
    (h : Follows env g s fun deeds y => E (.told e :: deeds) y) :
    Follows env (report e >>= fun _ => g) s E :=
  follows_modify_bind (fun _ _ => .told fun m hm => absurd hm (he m)) h

/-- The counters are told as they are. -/
theorem follows_snapshot_bind {g : Action (Client ω) β}
    (h : ∀ m, Follows env g s fun deeds y => E (.told (.metricsSnapshot m) :: deeds) y) :
    Follows env (get >>= fun c => report (.metricsSnapshot c.metrics) >>= fun _ => g) s E := by
  intro c y d hs hx
  rw [leads_get_bind] at hx
  have hdeed : Happens env c (.told (.metricsSnapshot c.metrics))
      { c with log := c.log ++ [.metricsSnapshot c.metrics] } :=
    .told fun m hm => (Event.metricsSnapshot.inj hm).symm
  have hleads : (report (.metricsSnapshot c.metrics)).Leads c (.ok ⟨⟩)
      { c with log := c.log ++ [.metricsSnapshot c.metrics] } := leads_modify.mpr ⟨rfl, rfl⟩
  rw [leads_bind_of_ok hleads] at hx
  obtain ⟨deeds, hE, hcomes⟩ :=
    h c.metrics { c with log := c.log ++ [.metricsSnapshot c.metrics] } y d hs hx
  exact ⟨_, hE, hdeed.comes hcomes⟩

theorem follows_count_bind {step : Metrics → Metrics} {gain : Metrics} {g : Action (Client ω) β}
    (hstep : ∀ m, step m = m + gain)
    (h : Follows env g s fun deeds y => E (.counted gain :: deeds) y) :
    Follows env (count step >>= fun _ => g) s E := by
  have hcounted (c : Client ω) :
      Happens env c (.counted gain) { c with metrics := step c.metrics } := by
    rw [hstep]
    exact .counted
  exact follows_modify_bind (fun c _ => hcounted c) h

/-- To count nothing is to do nothing. -/
theorem follows_of_idle {x : Action (Client ω) β}
    (h : Follows env x s fun deeds y => E (.counted 0 :: deeds) y) : Follows env x s E := by
  intro c y d hs hx
  have hidle : Happens env c (.counted 0) c := by
    have hcounted : Happens env c (.counted 0) { c with metrics := c.metrics + 0 } := .counted
    rw [Metrics.add_zero] at hcounted
    exact hcounted
  obtain ⟨deeds, hE, hcomes⟩ := h c y d hs hx
  exact ⟨_, hE, hidle.comes hcomes⟩

theorem follows_changeSession_bind {f : Session → Session} {g : Action (Client ω) β}
    (h : Follows env g (f s) fun deeds y => E (.changed (f s) :: deeds) y) :
    Follows env (changeSession f >>= fun _ => g) s E := by
  have hchanged (c : Client ω) (hs : c.session = s) :
      Happens env c (.changed (f s)) { c with session := f c.session } := by
    rw [hs]
    exact .changed
  exact follows_modify_bind hchanged h

/-- A last deed. -/
theorem follows_of_bind_pure {x : Action (Client ω) α} {C : List Deed → Except Stop α → Prop}
    (h : Follows env (x >>= pure) s C) : Follows env x s C := by
  rwa [bind_pure] at h

/-- The surroundings are asked for something, and refuse it or give it. -/
theorem follows_consult_bind {ask : ω → Except TransferError α × ω}
    {act : Except TransferError α → Act} {f : α → Action (Client ω) β}
    (hact : ∀ r, (act r).isRoundTrip = false)
    (hoccurs : ∀ w, (act (ask w).1).Occurs env w (ask w).2)
    (herror : ∀ e, E [.noted (act (.error e))] (.error (.failed e)))
    (hok : ∀ a, Follows env (f a) s fun deeds y => E (.noted (act (.ok a)) :: deeds) y) :
    Follows env (consult ask act >>= f) s E := by
  intro c y d hs hx
  have hasks : Happens env c (.noted (act (ask c.world).1))
      { c with world := (ask c.world).2, journal := c.journal ++ [act (ask c.world).1] } :=
    .asked (hact _) (hoccurs c.world)
  have hleads : (consult ask act).Leads c ((ask c.world).1.mapError .failed)
      { c with world := (ask c.world).2, journal := c.journal ++ [act (ask c.world).1] } :=
    leads_of_returns (returns_consult.mpr ⟨rfl, rfl⟩)
  cases hanswer : (ask c.world).1 with
  | ok a =>
    rw [hanswer] at hleads hasks
    rw [leads_bind_of_ok hleads] at hx
    obtain ⟨deeds, hE, hcomes⟩ := hok a
      { c with world := (ask c.world).2, journal := c.journal ++ [act (.ok a)] } y d hs hx
    exact ⟨_, hE, hasks.comes hcomes⟩
  | error e =>
    rw [hanswer] at hleads hasks
    have hstops : (consult ask act >>= f).Leads c (.error (.failed e)) _ :=
      leads_bind.mpr (.inr ⟨_, rfl, hleads⟩)
    obtain ⟨rfl, rfl⟩ := leads_unique hstops hx
    exact ⟨_, herror e, .ended (.cons hasks .nil) (by nofun)⟩

/-- A conversation is one round trip. -/
theorem converse_converses {request : Request} {talk : Action Connection α}
    {answer : α → Option ResponsePayload} (htalk : request.talk = answer <$> talk)
    {y : Except Stop α} (h : (converse env request talk answer).Leads c y d) :
    ∃ trip, Converses env c trip d ∧ trip.request = request ∧ trip.outcome = y.map answer := by
  rcases converse_cases h with ⟨e, w, hconnect, rfl, rfl⟩ | ⟨stream, w, left, hconnect, hleft, rfl⟩
  · exact ⟨_, .unconnected hconnect, rfl, rfl⟩
  · refine ⟨_, .connected hconnect ?_, rfl, rfl⟩
    rw [htalk]
    exact leads_map.mpr ⟨y, rfl, hleft⟩

theorem follows_converse_bind {request : Request} {talk : Action Connection α}
    {answer : α → Option ResponsePayload} {f : α → Action (Client ω) β}
    (htalk : request.talk = answer <$> talk)
    (hstop : ∀ (trip : RoundTrip) stop, trip.request = request → trip.outcome = .error stop →
      E [.noted (.roundTrip trip)] (.error stop))
    (hok : ∀ (trip : RoundTrip) a, trip.request = request → trip.outcome = .ok (answer a) →
      (∃ c d, (converse env request talk answer).Returns c (.ok a) d) →
        Follows env (f a) s fun deeds y => E (.noted (.roundTrip trip) :: deeds) y) :
    Follows env (converse env request talk answer >>= f) s E := by
  intro c y d hs hx
  rcases leads_bind.mp hx with ⟨a, m, hm, hrest⟩ | ⟨stop, rfl, hd⟩
  · obtain ⟨trip, hconverses, hrequest, houtcome⟩ := converse_converses htalk hm
    have hhappens : Happens env c (.noted (.roundTrip trip)) m :=
      .conversed hconverses (by rw [houtcome]; nofun)
    have hleft : m.session = s := by rw [hconverses.session_eq, hs]
    obtain ⟨deeds, hE, hcomes⟩ := hok trip a hrequest houtcome ⟨c, m, returns_ok_of_leads hm⟩
      m y d hleft hrest
    exact ⟨_, hE, hhappens.comes hcomes⟩
  · obtain ⟨trip, hconverses, hrequest, houtcome⟩ := converse_converses htalk hd
    refine ⟨_, hstop trip stop hrequest houtcome, ?_⟩
    cases stop with
    | failed e => exact .ended (.cons (.conversed hconverses (by rw [houtcome]; nofun)) .nil) (by nofun)
    | hung => exact .hung .nil hconverses houtcome

/-- A request is refused by what happens on the way, or its answer is one that was asked for. -/
theorem follows_ask_bind {request : Request} {expected : ResponseCode}
    {f : ResponsePayload → Action (Client ω) β} (he : request.expects = some expected)
    (hstop : ∀ (trip : RoundTrip) stop, trip.request = request → trip.outcome = .error stop →
      E [.noted (.roundTrip trip)] (.error stop))
    (hok : ∀ (trip : RoundTrip) p, trip.request = request → trip.outcome = .ok (some p) →
      (p.code = expected ∨ expected.substitute? = some p.code) →
        Follows env (f p) s fun deeds y => E (.noted (.roundTrip trip) :: deeds) y) :
    Follows env (ask env request expected >>= f) s E := by
  refine follows_converse_bind (talk_of_expects he) hstop fun trip p hrequest houtcome hreturns => ?_
  obtain ⟨c, d, hask⟩ := hreturns
  have hcode := ResponseHeader.code_cases_of_answers (answers_of_ask hask)
  exact hok trip p hrequest houtcome hcode

theorem follows_tell_bind {request : Request} {f : Unit → Action (Client ω) β}
    (he : request.expects = none)
    (hstop : ∀ (trip : RoundTrip) stop, trip.request = request → trip.outcome = .error stop →
      E [.noted (.roundTrip trip)] (.error stop))
    (hok : ∀ trip : RoundTrip, trip.request = request → trip.outcome = .ok none →
      Follows env (f ()) s fun deeds y => E (.noted (.roundTrip trip) :: deeds) y) :
    Follows env (tell env request >>= f) s E :=
  follows_converse_bind (talk_of_notice he) hstop fun trip _ hrequest houtcome _ =>
    hok trip hrequest houtcome

end Rules

end Client

end Courier
