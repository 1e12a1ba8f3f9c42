import OptimismZap.Contract.History

/-!
# Renounced ownership

After `renounceOwnership` the owner is the zero address.  Two of the mints are
then closed to everybody but the zero address, and the other two compare a
recovered account with zero, which no signature recovers to.  No call brings an
owner back, since the two that set one are `onlyOwner` themselves.

So minting is over for good (`closed_of_renounceOwnership`).  The argument needs
nothing from the hash function: it is about the checks only.
-/

namespace OptimismZap
namespace Zap

/-- Nobody owns the contract, and the table and the tokens are those of `σ`. -/
structure ClosedSince (σ σ' : State) : Prop where
  owner_eq : σ'.owner = 0
  seriesPublications_eq : σ'.seriesPublications = σ.seriesPublications
  keys_eq : σ'.tokenOwners.keys = σ.tokenOwners.keys

section Renounced

variable {P : Primitives} {Z : Deployed} {c : Call} {σ σ' σ'' : State} {es : List Event}

/-- **Without an owner no mint passes its checks**, whatever signatures it carries. -/
theorem not_authenticated_zero {data : ZapData} (hsender : c.msgSender ≠ 0)
    (hdata : c.zapData 0 = some data) : ¬ c.Authenticated P Z 0 := by
  intro hauth
  obtain ⟨howner, hsignatures⟩ := hauth data hdata
  obtain ⟨chainId, msgSender, op⟩ := c
  have hzero : ∀ signature, (signature, (0 : Address)) ∉ op.signatures 0 := fun signature hmem =>
    ECDSA.recover_ne_zero (hsignatures _ hmem) rfl
  cases op with
  | mintByOwnerForOwner | mintByOwner => exact hsender (howner rfl).symm
  | mintByZapper => exact hzero _ (List.mem_singleton_self _)
  | mintBySignatures => exact hzero _ (List.mem_cons_of_mem _ (List.mem_singleton_self _))
  | _ => exact absurd hdata (by simp [Call.zapData, Op.zapData])

theorem not_succeeds_of_owner_zero {data : ZapData} (howner : σ.owner = 0)
    (hsender : c.msgSender ≠ 0) (hdata : c.zapData σ.owner = some data) :
    ¬ (exec P Z c σ).Succeeds := by
  rintro ⟨r, hr⟩
  have hauth := ((outcome_exec_mint hdata).mp hr).1
  rw [howner] at hdata hauth
  exact not_authenticated_zero hsender hdata hauth

/-- Once closed, every call that goes through leaves the contract closed. -/
theorem ClosedSince.step (h : ClosedSince σ σ') (hsender : c.msgSender ≠ 0)
    (hstep : Step P Z c σ' σ'' es) : ClosedSince σ σ'' := by
  cases hstep with
  | mint data hdata hauth =>
    rw [h.owner_eq] at hdata hauth
    exact absurd hauth (not_authenticated_zero hsender hdata)
  | token token events hop heffect =>
    exact ⟨h.owner_eq, h.seriesPublications_eq, heffect.keys_eq.trans h.keys_eq⟩
  | ownership newOwner howner =>
    exact absurd (howner.symm.trans h.owner_eq) hsender

end Renounced

/-- **Renouncing ownership closes minting for ever.**  After a successful
`renounceOwnership` and whatever calls by proper senders follow, there is no owner, no mint
by a proper sender succeeds, and the table, the supply and the set of tokens are those of
the moment the owner left. -/
theorem closed_of_renounceOwnership {P : Primitives} {D : Deployment} {calls later : List Call}
    {c : Call} (hop : c.op = .renounceOwnership)
    (hsuccess : (exec P (D.code P).value c (run P D calls).state).Succeeds)
    (hsender : ∀ c' ∈ later, c'.msgSender ≠ 0) :
    (run P D (calls ++ c :: later)).state.owner = 0 ∧
    (∀ (mint : Call) (data : ZapData), mint.msgSender ≠ 0 →
      mint.zapData (run P D (calls ++ c :: later)).state.owner = some data →
      ¬ (exec P (D.code P).value mint (run P D (calls ++ c :: later)).state).Succeeds) ∧
    (run P D (calls ++ c :: later)).state.seriesPublications =
      (run P D (calls ++ [c])).state.seriesPublications ∧
    (run P D (calls ++ c :: later)).state.totalSupply =
      (run P D (calls ++ [c])).state.totalSupply ∧
    ∀ id, (run P D (calls ++ c :: later)).state.Exists id ↔
      (run P D (calls ++ [c])).state.Exists id := by
  have hclosed : ClosedSince (run P D (calls ++ [c])).state
      (run P D (calls ++ c :: later)).state := by
    have hfirst : ClosedSince (run P D (calls ++ [c])).state
        (run P D (calls ++ [c])).state := by
      refine ⟨?_, rfl, rfl⟩
      obtain ⟨⟨post, events⟩, hx⟩ := hsuccess
      rw [run_concat, World.attempt_of_ok hx]
      cases step_of_exec hx with
      | mint data hdata => simp [Call.zapData, Op.zapData, hop] at hdata
      | token token events hother => simp [hop, Op.onLedger] at hother
      | ownership newOwner howner hnew =>
        rcases hnew with ⟨-, rfl⟩ | ⟨hother, -⟩
        · rfl
        · simp [hop] at hother
    have hsplit : run P D (calls ++ c :: later) =
        (run P D (calls ++ [c])).run (exec P (D.code P).value) later := run_append_cons
    rw [hsplit]
    exact World.state_induction (fun c' s s' events hc' hx h => h.step hc' (step_of_exec hx))
      hsender hfirst
  refine ⟨hclosed.owner_eq, fun mint data hmint hdata => ?_, hclosed.seriesPublications_eq, ?_,
    fun id => ?_⟩
  · exact not_succeeds_of_owner_zero hclosed.owner_eq hmint hdata
  · rw [ERC721.totalSupply, EnumerableMap.length_eq, hclosed.keys_eq, ← EnumerableMap.length_eq,
      ERC721.totalSupply]
  · rw [ERC721.Exists, hclosed.keys_eq, ERC721.Exists]

/-- The zapper, having become the owner and minted a zap, renounces; then the deployer tries to hand
over the contract again and the zapper to mint another one. -/
theorem sample_closed :
    let renounce : Call := ⟨420, Sample.zapper, .renounceOwnership⟩
    let minting := run Sample.primitives Sample.deployment [Sample.handover, Sample.mint 420 42]
    let after := run Sample.primitives Sample.deployment
      ([Sample.handover, Sample.mint 420 42] ++ renounce :: [Sample.handover, Sample.mint 420 43])
    let before := run Sample.primitives Sample.deployment
      ([Sample.handover, Sample.mint 420 42] ++ [renounce])
    (exec Sample.primitives (Sample.deployment.code Sample.primitives).value (Sample.mint 420 43)
      minting.state).Succeeds ∧
    (exec Sample.primitives (Sample.deployment.code Sample.primitives).value renounce
      minting.state).Succeeds ∧
    after.state.owner = 0 ∧
    (∀ (mint : Call) (data : ZapData), mint.msgSender ≠ 0 →
      mint.zapData after.state.owner = some data →
      ¬ (exec Sample.primitives (Sample.deployment.code Sample.primitives).value mint
        after.state).Succeeds) ∧
    after.state.seriesPublications = before.state.seriesPublications ∧
    after.state.totalSupply = before.state.totalSupply ∧
    ∀ id, after.state.Exists id ↔ before.state.Exists id := by
  intro renounce minting after before
  have hsucceeds : (exec Sample.primitives (Sample.deployment.code Sample.primitives).value
        (Sample.mint 420 43) minting.state).Succeeds ∧
      (exec Sample.primitives (Sample.deployment.code Sample.primitives).value renounce
        minting.state).Succeeds := by
    unfold minting
    rw [Sample.primitives_eq]
    decide +kernel
  exact ⟨hsucceeds.1, hsucceeds.2,
    closed_of_renounceOwnership rfl hsucceeds.2 (by decide +kernel)⟩

end Zap
end OptimismZap
