import Courier.Proofs.Transport.Timetable

namespace Courier

namespace Connection

open Courier.Action

variable {k : Connection}

/-- What comes for a connection. One that was interrupted is told so before anything else. -/
def schedule (k : Connection) : List (Nat × Arrival) :=
  if k.interrupted then [(k.clock, .closed)] else Stream.arrivals k.clock k.stream.reads

/-- The bytes of a connection that can be taken at once. -/
def held (k : Connection) : Bytes :=
  if k.interrupted then [] else k.inbound

/-- The bytes that are there or come before the stream ends or breaks. -/
def coming (k : Connection) : Bytes :=
  k.held ++ Stream.content k.schedule

/-- When waiting for `wanted` bytes is over, and how. -/
def settled (k : Connection) (wanted : Nat) : Option (Nat × Except TransferError Unit) :=
  Stream.settled wanted k.clock k.held.length k.schedule

/-- What is there needs no wait. -/
theorem settled_sub_of_le {wanted there : Nat} (h : wanted ≤ there) :
    k.settled (wanted - there) = some (k.clock, .ok ()) := by
  rw [Nat.sub_eq_zero_of_le h]
  exact Stream.settled_of_enough (Nat.zero_le _)

theorem settled_of_interrupted (h : k.interrupted = true) {wanted : Nat} (hw : 1 ≤ wanted) :
    k.settled wanted = some (k.clock, .error .connectionClosed) := by
  have hless : ¬Frame.count wanted * Frame.size ≤ 0 :=
    Nat.not_le_of_lt (Stream.less_of_one_le hw (by decide))
  have hzero : ¬wanted = 0 := by omega
  simp [settled, held, schedule, h, Stream.settled, hless, hzero]

theorem schedule_of_open (h : k.interrupted = false) :
    k.schedule = Stream.arrivals k.clock k.stream.reads := by
  simp [schedule, h]

theorem coming_of_open (h : k.interrupted = false) :
    k.coming = k.inbound ++ Stream.content k.schedule := by
  simp [coming, held, h]

theorem settled_of_open (h : k.interrupted = false) :
    k.settled = fun wanted => Stream.settled wanted k.clock k.inbound.length k.schedule := by
  funext wanted
  simp [settled, held, h]

/-- How a step goes that takes the next frame, where `coming` are the bytes to come and `settled`
tells when there are enough of them. Whatever is wanted, the wait for it is over when the step
fails, and goes on without the bytes of the frame when it does not. -/
inductive TakesFrame (x : Action Connection Bytes) (k : Connection) (coming : Bytes)
    (settled : Nat → Option (Nat × Except TransferError Unit)) : Prop where
  | hangs {m : Connection} (hx : x.Hangs k m)
    (hnone : ∀ wanted, 1 ≤ wanted → settled wanted = none)
  | fails {e : TransferError} {m : Connection} (hx : x.Returns k (.error e) m)
    (hsome : ∀ wanted, 1 ≤ wanted → settled wanted = some (m.clock, .error e))
  | takes {frame : Bytes} {m : Connection} (hx : x.Returns k (.ok frame) m) (hne : frame ≠ [])
    (hcoming : frame ++ m.coming = coming)
    (hstep : ∀ wanted, 1 ≤ wanted → settled wanted = m.settled (wanted - frame.length))

theorem TakesFrame.congr {x y : Action Connection Bytes} {coming : Bytes}
    {settled settled' : Nat → Option (Nat × Except TransferError Unit)}
    (h : TakesFrame x k coming settled) (hy : y k = x k)
    (hsettled : ∀ wanted, 1 ≤ wanted → settled' wanted = settled wanted) :
    TakesFrame y k coming settled' := by
  have hreturns (r : Except TransferError Bytes) (m : Connection) (hx : x.Returns k r m) :
      y.Returns k r m := by
    unfold Returns at hx ⊢
    rwa [hy]
  cases h with
  | hangs hx hnone =>
    exact .hangs (hy.trans hx) fun wanted hw => (hsettled wanted hw).trans (hnone wanted hw)
  | fails hx hsome =>
    exact .fails (hreturns _ _ hx) fun wanted hw => (hsettled wanted hw).trans (hsome wanted hw)
  | takes hx hne hcoming hstep =>
    exact .takes (hreturns _ _ hx) hne hcoming fun wanted hw =>
      (hsettled wanted hw).trans (hstep wanted hw)

/-- The first bytes of what is held, when they make up a frame. -/
theorem takesFrame_of_held {x : Action Connection Bytes} {m : Connection} {buffer : Bytes}
    (hopen : m.interrupted = false) (hb : Frame.size ≤ buffer.length)
    (hx : x.Returns k (.ok (buffer.take Frame.size)) { m with inbound := buffer.drop Frame.size }) :
    TakesFrame x k (buffer ++ Stream.content m.schedule) fun wanted =>
      Stream.settled wanted m.clock buffer.length m.schedule := by
  refine .takes hx ?_ ?_ ?_
  · rw [← List.length_pos_iff, List.length_take, Nat.min_eq_left hb]
    decide
  · simp only [coming, held, schedule, hopen, if_false, Bool.false_eq_true]
    rw [← List.append_assoc, List.take_append_drop]
  · intro wanted hw
    simp only [settled, held, schedule, hopen, if_false, Bool.false_eq_true, List.length_take,
      List.length_drop, Nat.min_eq_left hb]
    exact Stream.settled_frame hw hb

/-- What is done with a buffer that was filled goes on as filling it did. -/
theorem takesFrame_of_read {r : Stream.Filled} (hopen : k.interrupted = false)
    (hp : r.progress ≠ .expired) (hb : r.progress = .done → Frame.size ≤ r.buffer.length) :
    TakesFrame (frameRead r) k r.coming fun wanted => r.settled wanted := by
  cases hr : r.progress with
  | done =>
    have hschedule : (k.afterRead r).schedule = Stream.arrivals r.time r.reads :=
      schedule_of_open hopen
    have htakes := takesFrame_of_held (x := frameRead r) (k := k) (m := k.afterRead r) hopen
      (hb hr) (by
        rw [returns_ok]
        simp only [frameRead, hr])
    rw [hschedule] at htakes
    simpa only [Stream.Filled.coming, Stream.Filled.settled, hr, clock_afterRead] using htakes
  | short =>
    by_cases hbuffer : r.buffer = []
    · have hx : (frameRead r).Returns k (.error .connectionClosed) (k.afterRead r) := by
        rw [returns_error]
        simp only [frameRead, hr, hbuffer, if_true]
      refine .fails hx ?_
      intro wanted hw
      have hzero : ¬wanted = 0 := by omega
      simp [Stream.Filled.settled, hr, hbuffer, hzero]
    · have hx : (frameRead r).Returns k (.ok r.buffer)
          { k.afterRead r with inbound := [], interrupted := true } := by
        rw [returns_ok]
        simp only [frameRead, hr, hbuffer, if_false]
      refine .takes hx hbuffer ?_ ?_
      · simp [Stream.Filled.coming, hr, coming, held, schedule, Stream.content]
      · intro wanted hw
        by_cases hw' : wanted ≤ r.buffer.length
        · rw [settled_sub_of_le hw']
          simp [Stream.Filled.settled, hr, hw']
        · rw [settled_of_interrupted rfl (by omega)]
          simp [Stream.Filled.settled, hr, hw']
  | fault f =>
    have hx : (frameRead r).Returns k (.error f.readError)
        { k.afterRead r with interrupted := true } := by
      rw [returns_error]
      simp only [frameRead, hr]
    refine .fails hx ?_
    intro wanted hw
    simp [Stream.Filled.settled, hr]
  | expired => exact absurd hr hp
  | hung =>
    have hx : (frameRead r).Hangs k (k.afterRead r) := by
      unfold Hangs
      simp only [frameRead, hr]
    refine .hangs hx ?_
    intro wanted hw
    simp only [Stream.Filled.settled, hr]

/-- A frame is a step on the way to whatever is wanted. -/
theorem nextFrame_takesFrame (k : Connection) :
    TakesFrame (nextFrame none) k k.coming k.settled := by
  by_cases hi : k.interrupted = true
  · have hx : (nextFrame none).Returns k (.error .connectionClosed)
        { k with interrupted := false } := by
      rw [returns_error]
      simp only [nextFrame, hi, if_true]
    exact .fails hx fun wanted hw => settled_of_interrupted hi hw
  rw [Bool.not_eq_true] at hi
  by_cases hin : Frame.size ≤ k.inbound.length
  · have htakes := takesFrame_of_held (x := nextFrame none) (k := k) (m := k) hi hin (by
      rw [returns_ok]
      simp [nextFrame, hi, hin])
    rwa [← coming_of_open hi, ← settled_of_open hi] at htakes
  · have hfill := Stream.fill_continues k.clock k.inbound k.stream.reads (Nat.lt_of_not_le hin)
    have hread := takesFrame_of_read hi hfill.unlimited hfill.full
    rw [hfill.coming, ← schedule_of_open hi, ← coming_of_open hi] at hread
    refine hread.congr (nextFrame_of_read hi (Nat.lt_of_not_le hin) none) ?_
    intro wanted hw
    rw [settled_of_open hi, schedule_of_open hi]
    exact hfill.settled wanted hw

/-- How a step goes that adds frames to `data` until there are `wanted` bytes. It is over when the
wait for those still wanted is, and the wait for more goes on from there. -/
inductive AddsFrames (x : Action Connection (Bytes × Nat)) (k : Connection) (wanted : Nat)
    (data : Bytes) : Prop where
  | hangs {m : Connection} (hx : x.Hangs k m) (hnone : k.settled (wanted - data.length) = none)
  | fails {e : TransferError} {m : Connection} (hx : x.Returns k (.error e) m)
    (hsome : k.settled (wanted - data.length) = some (m.clock, .error e))
  | adds {all : Bytes} {frames : Nat} {m : Connection} (hx : x.Returns k (.ok (all, frames)) m)
    (hlong : wanted ≤ all.length) (hcoming : all ++ m.coming = data ++ k.coming)
    (hthere : k.settled (wanted - data.length) = some (m.clock, .ok ()))
    (hmore : ∀ more, wanted ≤ more →
      k.settled (more - data.length) = m.settled (more - all.length))

theorem addsFrames_of_there {wanted frames : Nat} {data : Bytes} (h : wanted ≤ data.length) :
    AddsFrames (pure (data, frames)) k wanted data :=
  .adds (returns_pure.mpr ⟨rfl, rfl⟩) h rfl (settled_sub_of_le h) fun _ _ => rfl

theorem collect_addsFrames (wanted most : Nat) (data : Bytes) (frames : Nat) (k : Connection)
    (hm : wanted ≤ data.length + most) :
    AddsFrames (collect none wanted most data frames) k wanted data := by
  induction most generalizing data frames k with
  | zero => exact addsFrames_of_there hm
  | succ most ih =>
    unfold collect
    by_cases hw : wanted ≤ data.length
    · rw [if_pos hw]
      exact addsFrames_of_there hw
    rw [if_neg hw]
    have hsub (n : Nat) (hn : wanted ≤ n) : 1 ≤ n - data.length := by omega
    cases nextFrame_takesFrame k with
    | hangs hx hnone =>
      exact .hangs (hangs_bind.mpr (.inl hx)) (hnone _ (hsub wanted (Nat.le_refl _)))
    | fails hx hsome =>
      exact .fails (returns_bind_of_error hx) (hsome _ (hsub wanted (Nat.le_refl _)))
    | @takes frame m hx hne hcoming hstep =>
      have hsettled (n : Nat) (hn : wanted ≤ n) :
          k.settled (n - data.length) = m.settled (n - (data ++ frame).length) := by
        rw [hstep _ (hsub n hn), Nat.sub_sub, List.length_append]
      have hpos := List.length_pos_iff.mpr hne
      have hrest := ih (data ++ frame) (frames + 1) m (by rw [List.length_append]; omega)
      cases hrest with
      | hangs hy hnone =>
        exact .hangs ((hangs_bind_of_ok hx).mpr hy)
          ((hsettled wanted (Nat.le_refl _)).trans hnone)
      | fails hy hsome =>
        exact .fails ((returns_bind_of_ok hx).mpr hy)
          ((hsettled wanted (Nat.le_refl _)).trans hsome)
      | adds hy hlong hbytes hthere hmore =>
        refine .adds ((returns_bind_of_ok hx).mpr hy) hlong ?_
          ((hsettled wanted (Nat.le_refl _)).trans hthere) ?_
        · rw [hbytes, ← hcoming, List.append_assoc]
        · intro more hle
          rw [hsettled more hle, hmore more hle]

/-- When a message is received, or what comes in its place, if there is all the time for it: the
head is waited for and judged, and then as much as it announces. -/
def unhurried (head : Nat) (announced : Bytes → List Event × Except TransferError Nat)
    (k : Connection) : Option (Nat × Except TransferError Bytes) :=
  match k.settled head with
  | none => none
  | some (time, .error e) => some (time, .error e)
  | some (time, .ok ()) =>
    match (announced (k.coming.take head)).2 with
    | .error e => some (time, .error e)
    | .ok total =>
      (k.settled (max head total)).map fun p => (p.1, p.2.map fun _ => k.coming.take total)

/-- The step comes back when `timing` says and with what it says, or never. -/
inductive Timed (x : Action Connection Bytes) (k : Connection)
    (timing : Option (Nat × Except TransferError Bytes)) : Prop where
  | never {m : Connection} (hx : x.Hangs k m) (ht : timing = none)
  | ends {r : Except TransferError Bytes} {m : Connection} (hx : x.Returns k r m)
    (ht : timing = some (m.clock, r))

/-- What is left of a message is waited for like its head. -/
theorem receiveRest_timed (data : Bytes) (frames total : Nat) (k : Connection) :
    Timed (receiveRest none data frames (.ok total)) k
      ((k.settled (total - data.length)).map fun p =>
        (p.1, p.2.map fun _ => (data ++ k.coming).take total)) := by
  have hok : (Action.ofExcept (.ok total) : Action Connection Nat).Returns k (.ok total) k :=
    returns_ofExcept.mpr ⟨rfl, rfl⟩
  cases collect_addsFrames total total data frames k (Nat.le_add_left _ _) with
  | hangs hx hnone =>
    refine .never ((hangs_bind_of_ok hok).mpr (hangs_bind.mpr (.inl hx))) ?_
    rw [hnone, Option.map_none]
  | fails hx hsome =>
    refine .ends ((returns_bind_of_ok hok).mpr (returns_bind_of_error hx)) ?_
    rw [hsome, Option.map_some]
    rfl
  | @adds all frames' m hx hlong hcoming hthere hmore =>
    have hnoted : (modify fun c => { c with
        metrics := c.metrics.map (·.messageReceived frames' total) } :
        Action Connection PUnit).Returns m (.ok ()) { m with
          metrics := m.metrics.map (·.messageReceived frames' total) } :=
      returns_modify.mpr ⟨rfl, rfl⟩
    refine .ends ((returns_bind_of_ok hok).mpr ((returns_bind_of_ok hx).mpr
      ((returns_bind_of_ok hnoted).mpr (returns_pure.mpr ⟨rfl, rfl⟩)))) ?_
    rw [hthere, Option.map_some, ← hcoming]
    simp only [Except.map, List.take_append_of_le_length hlong]

theorem receiveBy_timed (head : Nat)
    (announced : Bytes → List Event × Except TransferError Nat) (k : Connection) :
    Timed (receiveBy none head announced) k (unhurried head announced k) := by
  cases collect_addsFrames head head [] 0 k (Nat.le_add_left _ _) with
  | hangs hx hnone =>
    rw [List.length_nil, Nat.sub_zero] at hnone
    exact .never (hangs_bind.mpr (.inl hx)) (by simp only [unhurried, hnone])
  | fails hx hsome =>
    rw [List.length_nil, Nat.sub_zero] at hsome
    exact .ends (returns_bind_of_error hx) (by simp only [unhurried, hsome])
  | @adds data frames m hx hlong hcoming hhead hmore =>
    rw [List.length_nil, Nat.sub_zero] at hhead
    rw [List.nil_append] at hcoming
    have htake : k.coming.take head = data.take head := by
      rw [← hcoming, List.take_append_of_le_length hlong]
    -- Judging the head changes neither what comes nor when.
    let n : Connection := { m with log := m.log ++ (announced (data.take head)).1 }
    have hjudge : (modify fun c => { c with log := c.log ++ (announced (data.take head)).1 } :
        Action Connection PUnit).Returns m (.ok ()) n := returns_modify.mpr ⟨rfl, rfl⟩
    cases hlength : (announced (data.take head)).2 with
    | error e =>
      have hrefused : (receiveRest none data frames (announced (data.take head)).2).Returns n
          (.error e) n := by
        rw [hlength]
        exact returns_bind_of_error (returns_ofExcept.mpr ⟨rfl, rfl⟩)
      refine .ends ((returns_bind_of_ok hx).mpr ((returns_bind_of_ok hjudge).mpr hrefused)) ?_
      simp only [unhurried, hhead, htake, hlength]
      rfl
    | ok total =>
      have hrest : k.settled (max head total) = n.settled (total - data.length) := by
        have hsub : total - data.length = max head total - data.length := by omega
        rw [hsub]
        exact hmore _ (Nat.le_max_left _ _)
      have hall : data ++ n.coming = k.coming := hcoming
      have hunhurried : unhurried head announced k =
          (n.settled (total - data.length)).map fun p =>
            (p.1, p.2.map fun _ => (data ++ n.coming).take total) := by
        simp only [unhurried, hhead, htake, hlength, hrest, hall]
      rw [hunhurried]
      cases receiveRest_timed data frames total n with
      | never hy ht =>
        rw [← hlength] at hy
        exact .never ((hangs_bind_of_ok hx).mpr ((hangs_bind_of_ok hjudge).mpr hy)) ht
      | ends hy ht =>
        rw [← hlength] at hy
        exact .ends ((returns_bind_of_ok hx).mpr ((returns_bind_of_ok hjudge).mpr hy)) ht

/-- The event at `time` settles the wait for `wanted` bytes. -/
def SettledAt (k : Connection) (wanted time : Nat) (r : Except TransferError Unit) : Prop :=
  Stream.SettledAt wanted k.clock k.held.length k.schedule time r

theorem settled_eq_some_iff {wanted time : Nat} {r : Except TransferError Unit} :
    k.settled wanted = some (time, r) ↔ k.SettledAt wanted time r :=
  Stream.settled_eq_some_iff

/-- A message is received when the frames are there that the longer of its head and its length
fills, and what it is follows from the bytes alone. -/
theorem unhurried_eq_ok_iff {head time : Nat} {message : Bytes}
    {announced : Bytes → List Event × Except TransferError Nat} :
    k.unhurried head announced = some (time, .ok message) ↔
      ∃ total, (announced (k.coming.take head)).2 = .ok total ∧
        k.SettledAt (max head total) time (.ok ()) ∧ message = k.coming.take total := by
  constructor
  · intro h
    unfold unhurried at h
    split at h
    · cases h
    · cases h
    split at h
    · cases h
    rename_i total htotal
    obtain ⟨⟨due, r⟩, hsettled, hr⟩ := Option.map_eq_some_iff.mp h
    cases r with
    | error e => cases hr
    | ok _ =>
      cases hr
      exact ⟨total, htotal, settled_eq_some_iff.mp hsettled, rfl⟩
  · rintro ⟨total, htotal, hsettled, rfl⟩
    rw [← settled_eq_some_iff] at hsettled
    obtain ⟨sooner, hhead⟩ := Stream.settled_mono (Nat.le_max_left head total) hsettled
    have hhead : k.settled head = some (sooner, .ok ()) := hhead
    simp only [unhurried, hhead, htotal, hsettled]
    rfl

/-- Under its deadline receiving is what it is without one, if that is over by then, and times out
at the deadline if not. -/
theorem receiveAnnounced_cases (head : Nat)
    (announced : Bytes → List Event × Except TransferError Nat) (k : Connection) :
    (∃ r left, k.unhurried head announced = some (left.clock, r) ∧
      left.clock ≤ k.clock + k.timeouts.receive ∧
      (receiveAnnounced head announced).Returns k r left) ∨
    (∃ left, (receiveAnnounced head announced).Returns k (.error .timeout) left ∧
      left.clock = k.clock + k.timeouts.receive) ∧
      ∀ time r, k.unhurried head announced = some (time, r) →
        k.clock + k.timeouts.receive < time := by
  have hannounced := receiveAnnounced_eq head announced k
  have htimed := receiveBy_timed head announced k
  unfold Returns
  simp only [hannounced]
  rcases receiveBy_hurries head announced k (Nat.le_add_right k.clock k.timeouts.receive) with
    ⟨r, left, hfree, hbound, hin⟩ | ⟨⟨left, hbound, hclock⟩, hlate⟩
  · cases htimed with
    | never hx ht => exact absurd hx (not_hangs_of_returns hfree)
    | ends hx ht =>
      obtain ⟨rfl, rfl⟩ := returns_unique hfree hx
      exact .inl ⟨r, left, ht, hin, hbound⟩
  · refine .inr ⟨⟨left, hbound, hclock⟩, ?_⟩
    intro time r h
    cases htimed with
    | never hx ht =>
      rw [ht] at h
      cases h
    | ends hx ht =>
      rw [ht] at h
      cases h
      exact hlate _ _ hx

/-- Whatever a message takes to come, it is waited for until the deadline and no longer. -/
theorem clock_le_of_receiveAnnounced {head : Nat}
    {announced : Bytes → List Event × Except TransferError Nat} {r : Except TransferError Bytes}
    {left : Connection} (h : (receiveAnnounced head announced).Returns k r left) :
    left.clock ≤ k.clock + k.timeouts.receive := by
  rcases receiveAnnounced_cases head announced k with ⟨y, m, -, hin, hy⟩ | ⟨⟨m, hy, hm⟩, -⟩
  · rw [(returns_unique h hy).2]
    exact hin
  · rw [(returns_unique h hy).2]
    exact Nat.le_of_eq hm

end Connection

end Courier
