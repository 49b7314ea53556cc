import Courier.Proofs.Transport.Delivery

namespace Courier

namespace Frame

theorem le_count_mul (n : Nat) : n ≤ count n * size := by
  simp only [count, size]
  omega

theorem count_zero : count 0 = 0 :=
  rfl

/-- A frame more, as long as something is missing. -/
theorem count_sub_take {wanted held coming : Nat} (h : held < wanted)
    (hc : wanted ≤ held + coming) :
    count (wanted - held) = count (wanted - (held + min size coming)) + 1 := by
  simp only [count, size]
  omega

/-- A message whose head is there takes no more frames than the longer of the two would at once. -/
theorem count_add_count {head total coming : Nat} (hl : head ≤ coming) (hc : total ≤ coming) :
    count head + count (total - min (count head * size) coming) = count (max head total) := by
  simp only [count, size]
  omega

end Frame

namespace Connection

theorem collect_onlyRead (deadline : Option Nat) (wanted most : Nat) (data : Bytes) (frames : Nat) :
    (collect deadline wanted most data frames).Moves OnlyRead := by
  induction most generalizing data frames with
  | zero => exact Action.moves_pure OnlyRead.refl _
  | succ most ih =>
    unfold collect
    split
    · exact Action.moves_pure OnlyRead.refl _
    · refine (nextFrame_onlyRead deadline).bind (fun _ _ _ h h' => h.trans h') ?_
      intro frame
      exact ih _ _

/-- Collecting takes just as many frames as hold what is missing, or stops where the bytes do. -/
theorem collect_of_yields {limit : Nat} {k : Connection} {a : Bytes} {stop : StreamEnd}
    (h : k.Yields limit a stop) (wanted most : Nat) (data : Bytes) (frames : Nat)
    (hm : wanted ≤ data.length + most) :
    (wanted ≤ data.length + a.length →
      ∃ left, (collect (some limit) wanted most data frames).Returns k
          (.ok (data ++ a.take (Frame.count (wanted - data.length) * Frame.size),
            frames + Frame.count (wanted - data.length))) left ∧
        left.Yields limit (a.drop (Frame.count (wanted - data.length) * Frame.size)) stop) ∧
    (data.length + a.length < wanted →
      ∃ left, (collect (some limit) wanted most data frames).Returns k
        (.error stop.error) left) := by
  induction most generalizing k a data frames with
  | zero =>
    have hz : wanted - data.length = 0 := by omega
    refine ⟨fun _ => ⟨k, ?_, ?_⟩, fun hl => absurd hl (by omega)⟩
    · rw [hz, Frame.count_zero, Nat.zero_mul, List.take_zero, List.append_nil]
      exact Action.returns_pure.mpr ⟨rfl, rfl⟩
    · rw [hz, Frame.count_zero, Nat.zero_mul, List.drop_zero]
      exact h
  | succ most ih =>
    by_cases hw : wanted ≤ data.length
    · have hz : wanted - data.length = 0 := by omega
      refine ⟨fun _ => ⟨k, ?_, ?_⟩, fun hl => absurd hl (by omega)⟩
      · rw [collect, if_pos hw, hz, Frame.count_zero, Nat.zero_mul, List.take_zero, List.append_nil]
        exact Action.returns_pure.mpr ⟨rfl, rfl⟩
      · rw [hz, Frame.count_zero, Nat.zero_mul, List.drop_zero]
        exact h
    rw [collect, if_neg hw]
    by_cases ha : a = []
    · subst ha
      refine ⟨fun hl => absurd hl (by simpa using hw), fun _ => ?_⟩
      obtain ⟨left, hleft⟩ := nextFrame_of_yields_nil h
      exact ⟨left, Action.returns_bind_of_error hleft⟩
    obtain ⟨m, hnext, hm'⟩ := nextFrame_of_yields h ha
    have hpos := List.length_pos_iff.mpr ha
    have hlen : (data ++ a.take Frame.size).length = data.length + min Frame.size a.length := by
      rw [List.length_append, List.length_take]
    have hsize : 0 < Frame.size := by decide
    obtain ⟨hok, herr⟩ := ih hm' (data ++ a.take Frame.size) (frames + 1) (by omega)
    constructor
    · intro hl
      have hc := Frame.count_sub_take (by omega : data.length < wanted) hl
      rw [hlen, List.append_assoc, List.length_drop, List.drop_drop, ← List.take_add] at hok
      rw [hc, Nat.add_mul, Nat.one_mul, Nat.add_comm _ Frame.size,
        Nat.add_comm (Frame.count _) 1, ← Nat.add_assoc]
      obtain ⟨left, hleft, hy⟩ := hok (by omega)
      exact ⟨left, (Action.returns_bind_of_ok hnext).mpr hleft, hy⟩
    · intro hl
      rw [hlen, List.length_drop] at herr
      obtain ⟨left, hleft⟩ := herr (by omega)
      exact ⟨left, (Action.returns_bind_of_ok hnext).mpr hleft⟩

/-- What is left to do of `receiveAnnounced` when the head has been judged. -/
def receiveRest (deadline : Option Nat) (data : Bytes) (frames : Nat)
    (length : Except TransferError Nat) : Action Connection Bytes := do
  let total ← Action.ofExcept length
  let (data, frames) ← collect deadline total total data frames
  modify fun c => { c with metrics := c.metrics.map (·.messageReceived frames total) }
  return data.take total

section Announced

variable {k : Connection} {a : Bytes} {stop : StreamEnd} {head : Nat}
  (announced : Bytes → List Event × Except TransferError Nat)

theorem receiveAnnounced_of_short (h : k.Yields (k.clock + k.timeouts.receive) a stop)
    (hl : a.length < head) :
    ∃ left, (receiveAnnounced head announced).Returns k (.error stop.error) left ∧
      OnlyRead k left := by
  have hlen : ([] : Bytes).length + a.length < head := by
    rw [List.length_nil, Nat.zero_add]
    exact hl
  obtain ⟨left, hleft⟩ := (collect_of_yields h head head [] 0 (Nat.le_add_left _ _)).2 hlen
  exact ⟨left, Action.returns_get_bind.mpr (Action.returns_bind_of_error hleft),
    collect_onlyRead _ _ _ _ _ k _ left hleft⟩

/-- The head takes its frames and no more, and just its bytes are judged. -/
theorem receiveAnnounced_of_head (h : k.Yields (k.clock + k.timeouts.receive) a stop)
    (hl : head ≤ a.length) :
    ∃ m, m.Yields (k.clock + k.timeouts.receive) (a.drop (Frame.count head * Frame.size)) stop ∧
      OnlyRead { k with log := k.log ++ (announced (a.take head)).1 } m ∧
      ∀ r left, (receiveRest (some (k.clock + k.timeouts.receive))
          (a.take (Frame.count head * Frame.size)) (Frame.count head)
          (announced (a.take head)).2).Returns m r left →
        (receiveAnnounced head announced).Returns k r left := by
  have hlen : head ≤ ([] : Bytes).length + a.length := by
    rw [List.length_nil, Nat.zero_add]
    exact hl
  obtain ⟨m, hm, hy⟩ := (collect_of_yields h head head [] 0 (Nat.le_add_left _ _)).1 hlen
  have hread := collect_onlyRead _ _ _ _ _ k _ m hm
  simp only [List.length_nil, Nat.sub_zero, List.nil_append, Nat.zero_add] at hm hy
  have htake : (a.take (Frame.count head * Frame.size)).take head = a.take head := by
    rw [List.take_take, Nat.min_eq_left (Frame.le_count_mul head)]
  refine ⟨{ m with log := m.log ++ (announced (a.take head)).1 }, ?_, ?_, ?_⟩
  · exact hy.congr rfl rfl rfl rfl
  · unfold OnlyRead at hread ⊢
    rw [hread]
  · intro r left hr
    refine Action.returns_get_bind.mpr ((Action.returns_bind_of_ok hm).mpr ?_)
    simp only [htake]
    exact (Action.returns_bind_of_ok (Action.returns_modify.mpr ⟨rfl, rfl⟩)).mpr hr

theorem receiveAnnounced_of_refused (h : k.Yields (k.clock + k.timeouts.receive) a stop)
    (hl : head ≤ a.length) {e : TransferError} (he : (announced (a.take head)).2 = .error e) :
    ∃ left, (receiveAnnounced head announced).Returns k (.error e) left ∧
      left.Yields (k.clock + k.timeouts.receive) (a.drop (Frame.count head * Frame.size)) stop ∧
      OnlyRead { k with log := k.log ++ (announced (a.take head)).1 } left := by
  obtain ⟨m, hy, hread, hrest⟩ := receiveAnnounced_of_head announced h hl
  refine ⟨m, hrest _ _ ?_, hy, hread⟩
  rw [he]
  exact Action.returns_bind_of_error (Action.returns_ofExcept.mpr ⟨rfl, rfl⟩)

theorem receiveAnnounced_of_cut (h : k.Yields (k.clock + k.timeouts.receive) a stop)
    (hl : head ≤ a.length) {total : Nat} (ht : (announced (a.take head)).2 = .ok total)
    (hc : a.length < total) :
    ∃ left, (receiveAnnounced head announced).Returns k (.error stop.error) left ∧
      OnlyRead { k with log := k.log ++ (announced (a.take head)).1 } left := by
  obtain ⟨m, hy, hread, hrest⟩ := receiveAnnounced_of_head announced h hl
  obtain ⟨left, hleft⟩ := (collect_of_yields hy total total
    (a.take (Frame.count head * Frame.size)) (Frame.count head) (Nat.le_add_left _ _)).2 (by
      rw [List.length_take, List.length_drop]
      omega)
  refine ⟨left, hrest _ _ ?_, hread.trans (collect_onlyRead _ _ _ _ _ m _ left hleft)⟩
  rw [ht]
  refine (Action.returns_bind_of_ok (Action.returns_ofExcept.mpr ⟨rfl, rfl⟩)).mpr ?_
  exact Action.returns_bind_of_error hleft

/-- A message that is all there is received as it is, with the frames that the longer of its head
and its length needs. -/
theorem receiveAnnounced_of_present (h : k.Yields (k.clock + k.timeouts.receive) a stop)
    (hl : head ≤ a.length) {total : Nat} (ht : (announced (a.take head)).2 = .ok total)
    (hc : total ≤ a.length) :
    ∃ left, (receiveAnnounced head announced).Returns k (.ok (a.take total)) left ∧
      left.Yields (k.clock + k.timeouts.receive)
        (a.drop (Frame.count (max head total) * Frame.size)) stop ∧
      OnlyRead { k with
        log := k.log ++ (announced (a.take head)).1
        metrics := k.metrics.map (·.messageReceived (Frame.count (max head total)) total) }
        left := by
  obtain ⟨m, hy, hread, hrest⟩ := receiveAnnounced_of_head announced h hl
  have hlen : (a.take (Frame.count head * Frame.size)).length =
      min (Frame.count head * Frame.size) a.length := List.length_take
  obtain ⟨left, hleft, hy'⟩ := (collect_of_yields hy total total
    (a.take (Frame.count head * Frame.size)) (Frame.count head) (Nat.le_add_left _ _)).1 (by
      rw [List.length_take, List.length_drop]
      omega)
  have hread' := collect_onlyRead _ _ _ _ _ m _ left hleft
  rw [← List.take_add, ← Nat.add_mul, hlen, Frame.count_add_count hl hc] at hleft
  rw [List.drop_drop, ← Nat.add_mul, hlen, Frame.count_add_count hl hc] at hy'
  refine ⟨{ left with
    metrics := left.metrics.map (·.messageReceived (Frame.count (max head total)) total) },
    ?_, ?_, ?_⟩
  · apply hrest
    rw [ht]
    refine (Action.returns_bind_of_ok (Action.returns_ofExcept.mpr ⟨rfl, rfl⟩)).mpr ?_
    refine (Action.returns_bind_of_ok hleft).mpr ?_
    refine (Action.returns_bind_of_ok (Action.returns_modify.mpr ⟨rfl, rfl⟩)).mpr ?_
    have hle : total ≤ Frame.count (max head total) * Frame.size :=
      Nat.le_trans (Nat.le_max_right _ _) (Frame.le_count_mul _)
    have htake : (a.take (Frame.count (max head total) * Frame.size)).take total =
        a.take total := by
      rw [List.take_take, Nat.min_eq_left hle]
    exact Action.returns_pure.mpr ⟨by rw [htake], rfl⟩
  · exact hy'.congr rfl rfl rfl rfl
  · unfold OnlyRead at hread hread' ⊢
    rw [hread', hread]

/-- A message that is no shorter than its head takes the frames that its length needs. -/
theorem receiveAnnounced_of_whole (h : k.Yields (k.clock + k.timeouts.receive) a stop)
    {total : Nat} (ht : (announced (a.take head)).2 = .ok total) (hl : head ≤ total)
    (hc : total ≤ a.length) :
    ∃ left, (receiveAnnounced head announced).Returns k (.ok (a.take total)) left ∧
      left.Yields (k.clock + k.timeouts.receive) (a.drop (Frame.count total * Frame.size)) stop ∧
      OnlyRead { k with
        log := k.log ++ (announced (a.take head)).1
        metrics := k.metrics.map (·.messageReceived (Frame.count total) total) } left := by
  have hall := receiveAnnounced_of_present announced h (Nat.le_trans hl hc) ht hc
  rwa [Nat.max_eq_right hl] at hall

end Announced

end Connection

end Courier
