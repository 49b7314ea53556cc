import Courier.Proofs.Client.Veil
import Courier.Rehearsal.World

namespace Courier.Rehearsal

/-- Private keys of one length. -/
def SameLength (key key' : PrivateKey) : Prop :=
  key.bytes.length = key'.bytes.length

/-- The same peers are still to come, and the same is stored but for the bytes of the private key. -/
def World.Veiled (w w' : World) : Prop :=
  w.peers = w'.peers ∧ Option.Rel (Identity.Veiled SameLength) w.stored w'.stored

theorem faultOr_replies {α β : Type} {U : α → β → Prop} {x : Except TransferError α}
    {y : Except TransferError β} {fault fault' : Option TransferError} (hf : fault = fault')
    (h : Replies U x y) : Replies U (faultOr fault x) (faultOr fault' y) := by
  subst hf
  cases fault with
  | none => exact h
  | some e => exact .error

theorem publicKey_replies {bs bs' : Bytes} (hl : bs.length = bs'.length) :
    Replies (fun _ _ => True) (PublicKey.ofBytes bs) (PublicKey.ofBytes bs') := by
  unfold PublicKey.ofBytes
  by_cases h : bs.length = 160
  · rw [dif_pos h, dif_pos (hl ▸ h)]
    exact .ok trivial
  · rw [dif_neg h, dif_neg (hl ▸ h), hl]
    exact .error

/-- Whether a key can be unwrapped, and how long it is, does not depend on the private key. -/
theorem unwrap_replies (key key' : PrivateKey) (wrapped : Bytes) :
    Replies (fun material material' => material.length = material'.length) (unwrap key wrapped)
      (unwrap key' wrapped) := by
  cases wrapped with
  | nil => exact .error
  | cons n bs =>
    simp only [unwrap]
    by_cases hshort : bs.length < n.toNat
    · rw [if_pos hshort, if_pos hshort]
      exact .error
    · rw [if_neg hshort, if_neg hshort]
      exact .ok (by rw [List.length_map, List.length_map])

theorem length_mix (key rest bs : Bytes) : (mix key rest bs).length = bs.length := by
  fun_induction mix key rest bs with
  | case1 | case4 => rfl
  | case2 _ _ _ _ _ ih => exact congrArg (· + 1) ih
  | case3 _ _ _ _ ih => exact congrArg (· + 1) ih

/-- Scripts whose keys differ in no more than their bytes make surroundings that differ in no more than
secrets. -/
theorem environment_veiled {s s' : Script} (hpublic : s.publicKey.length = s'.publicKey.length)
    (hprivate : s.privateKey.length = s'.privateKey.length)
    (hderived : s.derivedKey.length = s'.derivedKey.length) (hfiles : s.files = s'.files)
    (hfaults : s.faults = s'.faults) (timeouts : Timeouts) (maxRetries : UInt32) :
    (s.environment timeouts maxRetries).Veiled SameLength (fun _ _ => True) World.Veiled
      (s'.environment timeouts maxRetries) where
  connect w w' h := by
    obtain ⟨hpeers, hstored⟩ := h
    unfold Script.environment Script.connect
    simp only [hpeers]
    cases hw : w'.peers with
    | nil => exact ⟨.error, hpeers, hstored⟩
    | cons peer peers => exact ⟨.same peer, rfl, hstored⟩
  generateKeys w w' h := by
    have hkeys : Replies (fun keys keys' => SameLength keys.2 keys'.2)
        ((PublicKey.ofBytes s.publicKey).map fun k => (k, (⟨s.privateKey⟩ : PrivateKey)))
        ((PublicKey.ofBytes s'.publicKey).map fun k => (k, (⟨s'.privateKey⟩ : PrivateKey))) := by
      have hkey := publicKey_replies hpublic
      generalize PublicKey.ofBytes s.publicKey = x at hkey
      generalize PublicKey.ofBytes s'.publicKey = y at hkey
      cases hkey with
      | ok => exact .ok hprivate
      | error => exact .error
    exact ⟨faultOr_replies (congrArg Faults.generate hfaults) hkeys, h⟩
  derivePublicKey _ _ _ w w' h :=
    ⟨faultOr_replies (congrArg Faults.derive hfaults) (publicKey_replies hderived), h⟩
  unwrapKey key key' wrapped _ w w' h :=
    ⟨faultOr_replies (congrArg Faults.unwrap hfaults) ((unwrap_replies key key' wrapped).imp
      fun _ _ hl => ⟨hl, fun _ _ _ _ => trivial⟩), h⟩
  encrypt key key' content _ w w' h := by
    have hl : (encrypt key content).length = (encrypt key' content).length := by
      rw [encrypt, encrypt, length_mix, length_mix]
    exact ⟨faultOr_replies (congrArg Faults.encrypt hfaults) (.ok hl), h⟩
  loadIdentity w w' h := ⟨faultOr_replies (congrArg Faults.load hfaults) (.ok h.2), h⟩
  storeIdentity identity identity' hidentity w w' h := by
    unfold Script.environment Script.store
    simp only [hfaults]
    cases s'.faults.store with
    | none => exact ⟨.ok rfl, h.1, .some hidentity⟩
    | some e => exact ⟨.error, h⟩
  loadFile path w w' h := by
    have hfile : Replies Eq (s.loadFile path) (s'.loadFile path) := by
      rw [Script.loadFile, hfiles]
      exact .same _
    exact ⟨faultOr_replies (congrArg Faults.read hfaults) hfile, h⟩
  timeouts_eq := rfl
  maxRetries_eq := rfl

end Courier.Rehearsal
