import OptimismZap.Protocol.Consent

/-!
# Zapper and owner sign the same message

The intent to mint a zap does not say in which role it is signed.
`mintBySignatures` checks one digest twice, against the claimed zapper and
against the owner of the moment, so a signature is an owner's approval as soon as
its account is the owner, whatever the account meant by it and whoever owned the
contract when it signed.

What the contract does guarantee is `ownerSignature_of_mintBySignatures`: the
account behind the owner's signature owns the contract at the call and has signed
precisely this intent, and if it was not the owner when it signed, somebody has
made it the owner since.
-/

namespace OptimismZap
namespace Zap

section Roles

variable {P : Primitives} {D : Deployment} {timeline before rest : List Action} {c : Call}

/-- Only a transfer of ownership makes a proper account the owner. -/
theorem transferOwnership_of_owner_eq {Z : Deployed} {σ σ' : State} {es : List Event}
    {owner : Address} (hx : (exec P Z c σ).outcome = .ok (σ', es)) (hne : owner ≠ 0)
    (hbefore : σ.owner ≠ owner) (hafter : σ'.owner = owner) :
    c.op = .transferOwnership owner := by
  cases step_of_exec hx with
  | mint => exact absurd hafter hbefore
  | token => exact absurd hafter hbefore
  | ownership newOwner hsender hop =>
    obtain rfl : newOwner = owner := hafter
    exact (hop.resolve_left fun h => hne h.2).1

/-- If ownership came to a proper account in between, it was transferred to it. -/
theorem exists_transferOwnership {between : List Action} {owner : Address} (hne : owner ≠ 0)
    (hbefore : (worldAfter P D before).state.owner ≠ owner)
    (hafter : (worldAfter P D (before ++ between)).state.owner = owner) :
    ∃ b₁ c b₂, between = b₁ ++ .call c :: b₂ ∧ c.op = .transferOwnership owner ∧
      (exec P (D.code P).value c (worldAfter P D (before ++ b₁)).state).Succeeds := by
  unfold worldAfter at hafter
  rw [calls_append, run_append] at hafter
  obtain ⟨l₁, c, l₂, hsplit, hnot, hnow⟩ :=
    World.exists_change (A := fun σ : State => σ.owner = owner) hbefore hafter
  obtain ⟨b₁, b₂, rfl, rfl, -⟩ := exists_split_of_calls hsplit
  have hworld : (worldAfter P D before).run (exec P (D.code P).value) (calls b₁) =
      worldAfter P D (before ++ b₁) := by
    unfold worldAfter
    rw [calls_append, run_append]
  rw [World.run_concat, hworld] at hnow
  rw [hworld] at hnot
  rcases World.attempt_cases (exec P (D.code P).value) (worldAfter P D (before ++ b₁)) c with
    ⟨post, events, hx, heq⟩ | ⟨-, heq⟩
  · rw [heq] at hnow
    exact ⟨b₁, c, b₂, rfl, transferOwnership_of_owner_eq hx hne hnot hnow,
      Exec.succeeds_of_outcome hx⟩
  · rw [heq] at hnow
    exact absurd hnow hnot

/-- **What the owner's signature of `mintBySignatures` stands for.**  When the call succeeds,
the signature recovers to the owner of the moment, who has signed the intent to mint this
zap with this contract on this chain; and each time it signed that intent it was the owner,
or ownership was transferred to it between then and the call. -/
theorem ownerSignature_of_mintBySignatures
    (hK : CollisionFree P.keccak256 (hashedIn P D timeline)) (hforge : Unforgeable P D timeline)
    (hsplit : timeline = before ++ .call c :: rest) {data : ZapData}
    {zapperSignatureData contractOwnerSignatureData : Bytes}
    (hop : c.op = .mintBySignatures data.ipfsHash data.seriesTotal data.serialNumber data.zapper
      zapperSignatureData contractOwnerSignatureData)
    (hsucceeds : (exec P (D.code P).value c (worldAfter P D before).state).Succeeds) :
    let owner := (worldAfter P D before).state.owner
    (ECDSA.recover P.ecrecover (intentDigest P (D.code P).value c.chainId data)
        contractOwnerSignatureData).outcome = .ok owner ∧
      D.signingOf c.chainId owner data ∈ signed before ∧
      ∀ earlier between,
        before = earlier ++ .sign (D.signingOf c.chainId owner data) :: between →
          (worldAfter P D earlier).state.owner = owner ∨
          ∃ b₁ c' b₂, between = b₁ ++ .call c' :: b₂ ∧ c'.op = .transferOwnership owner ∧
            (exec P (D.code P).value c' (worldAfter P D (earlier ++ b₁)).state).Succeeds := by
  intro owner
  obtain ⟨⟨post, events⟩, hx⟩ := hsucceeds
  have hdata : c.zapData owner = some data := by
    unfold Call.zapData
    rw [hop]
    rfl
  have hp : (contractOwnerSignatureData, owner) ∈ c.op.signatures owner := by
    rw [hop]
    exact List.mem_cons_of_mem _ (List.mem_singleton_self _)
  have hrecover := (((outcome_exec_mint hdata).mp hx).1 data hdata).2 _ hp
  refine ⟨hrecover, signingOf_mem hK hforge hsplit hx hdata hp hrecover,
    fun earlier between hbefore => or_iff_not_imp_left.mpr fun howner => ?_⟩
  refine exists_transferOwnership (ECDSA.recover_ne_zero hrecover) howner ?_
  have hcalls : calls before = calls (earlier ++ between) := by
    rw [hbefore, calls_append, calls_append]
    rfl
  unfold worldAfter
  rw [← hcalls]
  rfl

/-! ### A signature in two roles -/

/-- The zapper signs the intent to mint a zap while the deployer is the owner; then the
deployer hands the contract over to the zapper. -/
def Sample.roles : List Action :=
  [.sign (Sample.deployment.signingOf 420 Sample.zapper (Sample.data 42)),
    .call Sample.handover]

/-- The deployer presents the one signature twice. -/
def Sample.mintBySignatures : Call where
  chainId := 420
  msgSender := Sample.deployer
  op := .mintBySignatures (Sample.data 42).ipfsHash (Sample.data 42).seriesTotal
    (Sample.data 42).serialNumber (Sample.data 42).zapper Sample.signature Sample.signature

namespace Sample

theorem owner_roles : (worldAfter primitives deployment roles).state.owner = zapper := by
  decide +kernel

theorem collisionFree_roles : CollisionFree primitives.keccak256
    (hashedIn primitives deployment (roles ++ [.call mintBySignatures])) := by
  refine collisionFree ?_
  rw [primitives_eq]
  decide +kernel

theorem unforgeable_roles :
    Unforgeable primitives deployment (roles ++ [.call mintBySignatures]) := by
  refine unforgeable_of_signed ?_
  intro before c rest hsplit data hdata p hp
  rcases before with _ | ⟨a, _ | ⟨b, _ | ⟨d, before⟩⟩⟩
  · simp [roles] at hsplit
  · -- the handover carries no signature
    obtain ⟨rfl, hrest⟩ := List.cons.inj hsplit
    obtain rfl := Action.call.inj (List.cons.inj hrest).1
    exact absurd hp List.not_mem_nil
  · obtain ⟨rfl, htail⟩ := List.cons.inj hsplit
    obtain ⟨rfl, hrest⟩ := List.cons.inj htail
    obtain rfl := Action.call.inj (List.cons.inj hrest).1
    obtain rfl := Option.some.inj hdata
    have hp : p = (signature, zapper) ∨
        p = (signature, (worldAfter primitives deployment roles).state.owner) :=
      List.mem_pair.mp hp
    rw [owner_roles, or_self] at hp
    rw [hp]
    exact List.mem_singleton_self _
  · simp [roles] at hsplit

theorem succeeds_roles : (exec primitives (deployment.code primitives).value mintBySignatures
    (worldAfter primitives deployment roles).state).Succeeds := by
  rw [primitives_eq]
  decide +kernel

end Sample

/-- The owner of the moment is the zapper, and the signature is the one he made before. -/
theorem sample_ownerSignature :
    let owner := (worldAfter Sample.primitives Sample.deployment Sample.roles).state.owner
    owner = Sample.zapper ∧
      (ECDSA.recover Sample.primitives.ecrecover (intentDigest Sample.primitives
          (Sample.deployment.code Sample.primitives).value 420 (Sample.data 42))
        Sample.signature).outcome = .ok owner ∧
      Sample.deployment.signingOf 420 owner (Sample.data 42) ∈ signed Sample.roles ∧
      ∀ earlier between, Sample.roles = earlier ++
          .sign (Sample.deployment.signingOf 420 owner (Sample.data 42)) :: between →
        (worldAfter Sample.primitives Sample.deployment earlier).state.owner = owner ∨
        ∃ b₁ c' b₂, between = b₁ ++ .call c' :: b₂ ∧ c'.op = .transferOwnership owner ∧
          (exec Sample.primitives (Sample.deployment.code Sample.primitives).value c'
            (worldAfter Sample.primitives Sample.deployment (earlier ++ b₁)).state).Succeeds :=
  ⟨Sample.owner_roles, ownerSignature_of_mintBySignatures Sample.collisionFree_roles
    Sample.unforgeable_roles rfl rfl Sample.succeeds_roles⟩

/-- **A zapper's signature passes for the owner's approval.**  The call goes through, with
unforged signatures and without collisions, although the account that passes the owner's
check never signed anything while it owned the contract. -/
theorem sample_zapperSignature_accepted :
    CollisionFree Sample.primitives.keccak256 (hashedIn Sample.primitives Sample.deployment
      (Sample.roles ++ [.call Sample.mintBySignatures])) ∧
    Unforgeable Sample.primitives Sample.deployment
      (Sample.roles ++ [.call Sample.mintBySignatures]) ∧
    (exec Sample.primitives (Sample.deployment.code Sample.primitives).value
      Sample.mintBySignatures (worldAfter Sample.primitives Sample.deployment
        Sample.roles).state).Succeeds ∧
    ¬ ∃ earlier s between, Sample.roles = earlier ++ .sign s :: between ∧
      s.account = (worldAfter Sample.primitives Sample.deployment Sample.roles).state.owner ∧
      (worldAfter Sample.primitives Sample.deployment earlier).state.owner = s.account := by
  refine ⟨Sample.collisionFree_roles, Sample.unforgeable_roles, Sample.succeeds_roles, ?_⟩
  rintro ⟨earlier, s, between, hsplit, haccount, howner⟩
  rcases earlier with _ | ⟨a, _ | ⟨b, earlier⟩⟩
  · -- the only signing comes first, when the deployer is the owner
    rw [haccount, Sample.owner_roles] at howner
    exact absurd howner (by decide +kernel)
  · simp [Sample.roles] at hsplit
  · simp [Sample.roles] at hsplit

end Roles

end Zap
end OptimismZap
