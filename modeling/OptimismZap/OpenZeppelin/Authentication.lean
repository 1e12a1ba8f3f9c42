import OptimismZap.Library.AbiEncoding
import OptimismZap.Library.Hashing

/-!
# `access/Ownable.sol` and `cryptography/ECDSA.sol`

The two ways the contract learns who agrees to a call: the owner is the one
address that passes `onlyOwner`, and `recover` names the account behind a
signature.  `ecrecover` is a precompiled contract, so it is a parameter.

Two facts are used everywhere downstream.  `recover_ne_zero`: the recovered
account is never the zero address, whatever the signature.  And the owner
becomes zero by `renounceOwnership` only (`outcome_transferOwnership_eq_ok` sets
a nonzero one), after which nobody but the zero address passes `onlyOwner`.
-/

namespace OptimismZap

/-! ## Ownership -/

/-- The storage of `Ownable`. -/
structure Ownable where
  /-- `_owner`. -/
  owner : Address

namespace Ownable

/-- The event of `Ownable`. -/
inductive Event where
  | ownershipTransferred (previousOwner newOwner : Address)
  deriving DecidableEq

variable (o : Ownable) (msgSender : Address)

/-- The modifier `onlyOwner`. -/
def onlyOwner : Exec Unit :=
  Exec.require (o.owner = msgSender) "Ownable: caller is not the owner"

/-- `renounceOwnership`. -/
def renounceOwnership : Exec (Ownable × List Event) := do
  o.onlyOwner msgSender
  return ({ owner := 0 }, [.ownershipTransferred o.owner 0])

/-- `transferOwnership`. -/
def transferOwnership (newOwner : Address) : Exec (Ownable × List Event) := do
  o.onlyOwner msgSender
  Exec.require (newOwner ≠ 0) "Ownable: new owner is the zero address"
  return ({ owner := newOwner }, [.ownershipTransferred o.owner newOwner])

variable {o msgSender}

@[simp] theorem outcome_onlyOwner_eq_ok {u : Unit} :
    (o.onlyOwner msgSender).outcome = .ok u ↔ o.owner = msgSender :=
  Exec.outcome_require_eq_ok

theorem outcome_renounceOwnership_eq_ok {r : Ownable × List Event} :
    (o.renounceOwnership msgSender).outcome = .ok r ↔
      o.owner = msgSender ∧ (⟨0⟩, [Event.ownershipTransferred o.owner 0]) = r := by
  simp [renounceOwnership]

theorem outcome_transferOwnership_eq_ok {newOwner : Address} {r : Ownable × List Event} :
    (o.transferOwnership msgSender newOwner).outcome = .ok r ↔
      o.owner = msgSender ∧ newOwner ≠ 0 ∧
        (⟨newOwner⟩, [Event.ownershipTransferred o.owner newOwner]) = r := by
  simp [transferOwnership]

end Ownable

/-! ## Signatures -/

namespace ECDSA

/-- The upper end of the lower half order. -/
def halfOrder : ℕ := 0x7FFFFFFFFFFFFFFFFFFFFFFFFFFFFFFF5D576E7357A4501DDFE92F46681B20A0

variable (ecrecover : Bytes32 → UInt8 → Bytes32 → Bytes32 → Address)

/-- `recover(hash, v, r, s)`. -/
def recoverVRS (hash : Bytes32) (v : UInt8) (r s : Bytes32) : Exec Address := do
  Exec.require (s.toNat ≤ halfOrder) "ECDSA: invalid signature 's' value"
  Exec.require (v = 27 ∨ v = 28) "ECDSA: invalid signature 'v' value"
  let signer := ecrecover hash v r s
  Exec.require (signer ≠ 0) "ECDSA: invalid signature"
  return signer

/-- `recover(hash, signature)`: the signature is `r`, `s` and `v`, one after the
other. -/
def recover (hash : Bytes32) (signature : Bytes) : Exec Address := do
  Exec.require (signature.length = 65) "ECDSA: invalid signature length"
  let r := FixedBytes.ofBytes 32 signature
  let s := FixedBytes.ofBytes 32 (signature.drop 32)
  let v := (signature.drop 64).headD 0
  recoverVRS ecrecover hash v r s

variable {ecrecover}

@[simp] theorem hashed_recover {hash : Bytes32} {signature : Bytes} :
    (recover ecrecover hash signature).hashed = [] := by
  refine List.subset_nil.mp (Exec.hashed_bind_subset (by simp) fun _ => ?_)
  refine Exec.hashed_bind_subset (by simp) fun _ => Exec.hashed_bind_subset (by simp) fun _ => ?_
  exact Exec.hashed_bind_subset (by simp) fun _ => by simp

/-- A signature check that passes leaves no trace. -/
theorem hashed_bind_check {α : Type} {hash : Bytes32} {signature : Bytes} {account : Address}
    {message : String} (h : (recover ecrecover hash signature).outcome = .ok account)
    (f : Unit → Exec α) :
    (recover ecrecover hash signature >>= fun signer =>
      Exec.require (signer = account) message >>= f).hashed = (f ()).hashed := by
  rw [Exec.hashed_bind_of_ok h, hashed_recover, Exec.hashed_bind_require rfl, List.nil_append]

/-- **No signature recovers to the zero address.**  The precompile answers zero
for what it cannot make sense of, and that answer is rejected. -/
theorem recover_ne_zero {hash : Bytes32} {signature : Bytes} {signer : Address}
    (h : (recover ecrecover hash signature).outcome = .ok signer) : signer ≠ 0 := by
  simp only [recover, recoverVRS, Exec.outcome_bind_eq_ok, Exec.outcome_require_eq_ok,
    Exec.outcome_pure_eq_ok] at h
  obtain ⟨-, -, -, -, -, -, -, hne, rfl⟩ := h
  exact hne

end ECDSA

end OptimismZap
