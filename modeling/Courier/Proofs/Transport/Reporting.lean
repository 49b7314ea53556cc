import Courier.Proofs.Client.Trips
import Courier.Proofs.Transport.Receiving
import Courier.Proofs.Transport.Sending

namespace Courier

/-- It is about a foreign protocol version. -/
def Event.isVersionNote : Event → Bool
  | .versionDiffers _ _ => true
  | _ => false

theorem ResponseHeader.isVersionNote_of_announced {expected : ResponseCode} {data : Bytes}
    {e : Event} (he : e ∈ (announced expected data).1) : e.isVersionNote := by
  unfold announced at he
  split at he
  · cases he
  · unfold warnings at he
    split at he
    · rw [List.mem_singleton.mp he]
      rfl
    · cases he

namespace Connection

/-- From `k` to `left` nothing is reported but foreign versions. -/
def NotesVersions (k left : Connection) : Prop :=
  ∃ notes, left.log = k.log ++ notes ∧ ∀ e ∈ notes, e.isVersionNote

theorem NotesVersions.refl (k : Connection) : NotesVersions k k :=
  ⟨[], (List.append_nil _).symm, by simp⟩

theorem NotesVersions.trans {k m left : Connection} (h : NotesVersions k m)
    (h' : NotesVersions m left) : NotesVersions k left := by
  obtain ⟨notes, hm, hnotes⟩ := h
  obtain ⟨more, hleft, hmore⟩ := h'
  refine ⟨notes ++ more, ?_, ?_⟩
  · rw [hleft, hm, List.append_assoc]
  · intro e he
    rcases List.mem_append.mp he with he | he
    · exact hnotes e he
    · exact hmore e he

theorem NotesVersions.of_log_eq {k left : Connection} (h : left.log = k.log) :
    NotesVersions k left :=
  ⟨[], h.trans (List.append_nil _).symm, by simp⟩

section Moves

variable {α β : Type}

theorem notesVersions_bind {x : Action Connection α} {f : α → Action Connection β}
    (hx : x.Moves NotesVersions) (hf : ∀ a, (f a).Moves NotesVersions) :
    (x >>= f).Moves NotesVersions :=
  hx.bind (fun _ _ _ h h' => h.trans h') hf

theorem notesVersions_of_onlyWritten {x : Action Connection α} (hx : x.Moves OnlyWritten) :
    x.Moves NotesVersions :=
  hx.mono fun _ _ h => .of_log_eq (congrArg (·.log) h)

theorem notesVersions_of_onlyRead {x : Action Connection α} (hx : x.Moves OnlyRead) :
    x.Moves NotesVersions :=
  hx.mono fun _ _ h => .of_log_eq h.log_eq

theorem close_notesVersions : close.Moves NotesVersions := by
  apply notesVersions_bind (notesVersions_of_onlyWritten
    (onlyWritten_of_quietly (flush_quietlyWritten none)))
  intro _
  refine notesVersions_bind (Action.moves_modify fun _ => .of_log_eq rfl) fun _ => ?_
  apply Action.moves_get_bind
  intro k
  exact notesVersions_of_onlyWritten (onlyWritten_of_quietly (settle_quietlyWritten none _))

/-- The header is all that is reported on, once, when it has come in. -/
theorem receiveAnnounced_notesVersions (head : Nat) (expected : ResponseCode) :
    (receiveAnnounced head (ResponseHeader.announced expected)).Moves NotesVersions := by
  apply Action.moves_get_bind
  intro k
  apply notesVersions_bind (notesVersions_of_onlyRead (collect_onlyRead _ _ _ _ _))
  intro collected
  apply notesVersions_bind
  · apply Action.moves_modify
    intro m
    exact ⟨_, rfl, fun e he => ResponseHeader.isVersionNote_of_announced he⟩
  · intro _
    apply notesVersions_bind (Action.moves_ofExcept NotesVersions.refl _)
    intro total
    apply notesVersions_bind (notesVersions_of_onlyRead (collect_onlyRead _ _ _ _ _))
    intro collected
    refine notesVersions_bind (Action.moves_modify fun _ => .of_log_eq rfl) fun _ => ?_
    exact Action.moves_pure NotesVersions.refl _

theorem ask_notesVersions (request : Request) (expected : ResponseCode) :
    (ask request expected).Moves NotesVersions := by
  apply notesVersions_bind (Action.moves_ofExcept NotesVersions.refl _)
  intro message
  apply notesVersions_bind (notesVersions_of_onlyWritten (send_onlyWritten message))
  intro _
  apply notesVersions_bind (receiveAnnounced_notesVersions _ expected)
  intro received
  apply notesVersions_bind (Action.moves_ofExcept NotesVersions.refl _)
  intro response
  refine notesVersions_bind (Action.moves_attempt close_notesVersions) fun _ => ?_
  exact Action.moves_pure NotesVersions.refl _

theorem tell_notesVersions (request : Request) : (tell request).Moves NotesVersions := by
  apply notesVersions_bind (Action.moves_ofExcept NotesVersions.refl _)
  intro message
  apply notesVersions_bind (notesVersions_of_onlyWritten (send_onlyWritten message))
  intro _
  exact close_notesVersions

end Moves

end Connection

/-- A conversation reports foreign versions, and nothing else. -/
theorem Request.talk_notesVersions (r : Request) : r.talk.Moves Connection.NotesVersions := by
  unfold talk
  split
  · exact Action.moves_map (Connection.ask_notesVersions r _)
  · exact Action.moves_map (Connection.tell_notesVersions r)

end Courier
