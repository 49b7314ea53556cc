import Courier.Proofs.Coupling
import Courier.Transport.Connection

namespace Courier.Connection

open Courier.Action

/-- The single steps of writing come to the same on connections that `R` relates, and keep them
related. -/
structure Writes (R : Connection → Connection → Prop) : Prop where
  writeOut : ∀ deadline enough, Keeps R Eq (writeOut deadline enough) (writeOut deadline enough)
  settle : ∀ deadline s, Keeps R Eq (settle deadline s) (settle deadline s)
  await : ∀ deadline, Keeps R Eq (await deadline) (await deadline)
  length_outbound : ∀ k l, R k l → k.outbound.length = l.outbound.length
  onFlush_eq : ∀ k l, R k l → k.stream.onFlush = l.stream.onFlush
  onShutdown_eq : ∀ k l, R k l → k.stream.onShutdown = l.stream.onShutdown
  shutdown : ∀ k l, R k l → R { k with stream := { k.stream with shutdown := true } }
    { l with stream := { l.stream with shutdown := true } }

namespace Writes

variable {R : Connection → Connection → Prop}

theorem flush (h : Writes R) (deadline : Option Nat) :
    Keeps R Eq (flush deadline) (flush deadline) := by
  refine (h.writeOut deadline 0).bind_eq fun _ => keeps_get_bind fun k l hkl => ?_
  rw [h.onFlush_eq k l hkl]
  exact h.settle deadline _

theorem makeRoom (h : Writes R) (deadline : Nat) :
    Keeps R Eq (makeRoom deadline) (makeRoom deadline) := by
  refine keeps_get_bind fun k l hkl => ?_
  rw [h.length_outbound k l hkl]
  split
  · refine (h.writeOut _ _).bind_eq fun done => ?_
    cases done with
    | false => exact h.await deadline
    | true =>
      refine keeps_get_bind fun k l hkl => ?_
      rw [h.onFlush_eq k l hkl]
      split
      · exact h.await deadline
      · exact h.settle _ _
  · exact keeps_pure rfl

theorem close (h : Writes R) : Keeps R Eq close close := by
  refine (h.flush none).bind_eq fun _ => Keeps.bind_eq (keeps_modify h.shutdown) fun _ =>
    keeps_get_bind fun k l hkl => ?_
  rw [h.onShutdown_eq k l hkl]
  exact h.settle none _

end Writes

end Courier.Connection
