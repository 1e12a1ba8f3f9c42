import OptimismZap.Client.HashUtils
import OptimismZap.Contract.History

/-!
# Signing and calling

The contract is one party of a protocol.  The others are accounts that sign typed
data with their wallets and send calls; signatures travel outside the chain, and
anybody may present them at any later time, on any chain.  A timeline is a
sequence of such events, and what an account has consented to is the set of its
signings so far.

`Unforgeable` is the assumption about signatures: where a call presents a
signature that recovers to the account it should come from, that account has by
then signed a message with that digest.  What message it was, the assumption
does not say.  `eq_signingOf_of_digest_eq` does: a digest the contract has computed
in a run without collisions is the digest of one message on one domain only, so
the account has signed exactly what the call presents.
-/

namespace OptimismZap
namespace Zap

open TypedData HashUtils

/-- An EIP-712 domain. -/
@[ext] structure Domain where
  name : Bytes
  version : Bytes
  chainId : Uint256
  verifyingContract : Address
  deriving DecidableEq

/-- The message of type `ZapMintIntent`. -/
@[ext] structure ZapMintIntent where
  mintIntent : Bytes
  data : ZapData
  deriving DecidableEq

/-- An account signs a message on a domain. -/
@[ext] structure Signing where
  account : Address
  domain : Domain
  intent : ZapMintIntent
  deriving DecidableEq

/-- The typed data the wallet hashes. -/
def Signing.typedData (s : Signing) : TypedData :=
  typedDataFor "ZapMintIntent" zapMintIntent
    (domainObject s.domain.name s.domain.version s.domain.chainId.toNat
      s.domain.verifyingContract.bytes)
    (zapMintIntentObject s.intent.mintIntent s.intent.data.ipfsHash.bytes
      s.intent.data.zapper.bytes s.intent.data.seriesTotal.bytes s.intent.data.serialNumber.bytes)

/-- An event of a timeline. -/
inductive Action where
  | sign (signing : Signing)
  | call (c : Call)

/-- The signings of a timeline. -/
def signed (timeline : List Action) : List Signing :=
  timeline.filterMap fun
    | .sign s => some s
    | .call _ => none

/-- The calls of a timeline. -/
def calls (timeline : List Action) : List Call :=
  timeline.filterMap fun
    | .sign _ => none
    | .call c => some c

section Timelines

variable (P : Primitives) (D : Deployment)

/-- The contract after a timeline. -/
def worldAfter (timeline : List Action) : World := run P D (calls timeline)

/-- All strings hashed in a timeline, by the contract and by the wallets. -/
def hashedIn (timeline : List Action) : List Bytes :=
  (worldAfter P D timeline).hashed ++
    (signed timeline).flatMap fun s => (s.typedData.digest P.keccak256).hashed

/-- The signing by which an account consents to the mint of `data` on chain `chainId`. -/
def Deployment.signingOf (chainId : Uint256) (account : Address) (data : ZapData) : Signing where
  account := account
  domain := ⟨utf8 name, D.version, chainId, D.this⟩
  intent := ⟨utf8 mintIntentStatement, data⟩

/-- Signatures that pass a check were made: where a call carries a signature that recovers,
for the digest the contract computes, to the account the check compares it with, the account
has signed some message with that digest before. -/
def Unforgeable (timeline : List Action) : Prop :=
  ∀ before c rest, timeline = before ++ .call c :: rest →
    ∀ data, c.zapData (worldAfter P D before).state.owner = some data →
      ∀ p ∈ c.op.signatures (worldAfter P D before).state.owner,
        (ECDSA.recover P.ecrecover (intentDigest P (D.code P).value c.chainId data) p.1).outcome =
          .ok p.2 →
        ∃ s ∈ signed before, s.account = p.2 ∧ (s.typedData.digest P.keccak256).outcome =
          .ok (intentDigest P (D.code P).value c.chainId data)

end Timelines

/-! ## Splitting timelines -/

theorem signed_append {t t' : List Action} : signed (t ++ t') = signed t ++ signed t' :=
  List.filterMap_append

theorem calls_append {t t' : List Action} : calls (t ++ t') = calls t ++ calls t' :=
  List.filterMap_append

theorem calls_concat {t : List Action} {c : Call} : calls (t ++ [.call c]) = calls t ++ [c] :=
  calls_append

/-- Where the calls of a timeline split, the timeline splits. -/
theorem exists_split_of_calls {timeline : List Action} {l₁ l₂ : List Call} {c : Call}
    (h : calls timeline = l₁ ++ c :: l₂) : ∃ before rest,
      timeline = before ++ .call c :: rest ∧ calls before = l₁ ∧ calls rest = l₂ := by
  obtain ⟨t₁, t, rfl, rfl, ht⟩ := List.filterMap_eq_append_iff.mp h
  obtain ⟨t₂, a, t₃, rfl, hnone, ha, rfl⟩ := List.filterMap_eq_cons_iff.mp ht
  cases a with
  | sign s => exact absurd ha (by simp)
  | call c' =>
    obtain rfl := Option.some.inj ha
    refine ⟨t₁ ++ t₂, t₃, by simp, ?_, rfl⟩
    rw [calls_append, show calls t₂ = [] from List.filterMap_eq_nil_iff.mpr hnone, List.append_nil]
    rfl

end Zap
end OptimismZap
